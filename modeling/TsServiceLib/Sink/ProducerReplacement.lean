import TsServiceLib.Sink.KafkaFrames

/-!
A producer is replaced at most once. A producer is made for one attempt to connect
it, by a start or by a recovery, and the attempt that succeeds makes it current. A
recovery replaces the producer that is current, so one that was replaced is neither
current nor about to be, and does not become so again.
-/
namespace KafkaSinks
open Transitions Function

inductive Attempt where
  | start (id : Nat)
  | recovery (r : Nat)
  deriving DecidableEq

def StartPhase.pending : StartPhase → Option Nat
  | .connecting p => some p
  | _ => none

def Recovery.pending (recovery : Recovery) : Option Nat :=
  if recovery.phase = .connecting then some recovery.replacement else none

/-- The producer that the attempt connects. -/
def State.pending (s : State) : Attempt → Option Nat
  | .start id => (s.starts id).pending
  | .recovery r => (s.recoveries r).pending

/-- A producer that waits to connect has one attempt, and neither it nor the current
    one has been replaced. -/
structure Replaceable (s : State) : Prop where
  apart : ∀ k l p, s.pending k = some p → s.pending l = some p → k = l
  waiting : ∀ k p, s.pending k = some p →
    p < s.nextProducer ∧ (s.producers p).replacements = 0 ∧ s.producer ≠ some p
  current : ∀ p, s.producer = some p → p < s.nextProducer ∧ (s.producers p).replacements = 0
  once : ∀ p, (s.producers p).replacements ≤ 1

/-- What a step does with the attempts, the current producer and the replacements. -/
inductive Hands (s t : State) : Prop where
  /-- Attempts may end without a producer, and the current one may be given up. -/
  | rests (fewer : ∀ l q, t.pending l = some q → s.pending l = some q) (next : t.nextProducer = s.nextProducer)
      (producer : t.producer = s.producer ∨ t.producer = none)
      (counts : ∀ q, (t.producers q).replacements = (s.producers q).replacements)
  | makes (k : Attempt)
      (fewer : ∀ l q, t.pending l = some q → (l = k ∧ q = s.nextProducer) ∨ s.pending l = some q)
      (next : t.nextProducer = s.nextProducer + 1) (producer : t.producer = s.producer)
      (fresh : (t.producers s.nextProducer).replacements = 0)
      (counts : ∀ q, q ≠ s.nextProducer → (t.producers q).replacements = (s.producers q).replacements)
  | takes (k : Attempt) (p : Nat) (pending : s.pending k = some p)
      (fewer : ∀ l q, t.pending l = some q → l ≠ k ∧ s.pending l = some q) (next : t.nextProducer = s.nextProducer)
      (producer : t.producer = some p) (counts : ∀ q, (t.producers q).replacements = (s.producers q).replacements)
  | replaces (k : Attempt) (failed p : Nat) (pending : s.pending k = some p)
      (fewer : ∀ l q, t.pending l = some q → l ≠ k ∧ s.pending l = some q) (next : t.nextProducer = s.nextProducer)
      (current : s.producer = some failed) (producer : t.producer = some p)
      (counted : (t.producers failed).replacements = (s.producers failed).replacements + 1)
      (counts : ∀ q, q ≠ failed → (t.producers q).replacements = (s.producers q).replacements)

section Steps
variable {s t u : State} {a : Action}

theorem replaceable_rests (h : Replaceable s) (fewer : ∀ l q, t.pending l = some q → s.pending l = some q)
    (next : t.nextProducer = s.nextProducer) (producer : t.producer = s.producer ∨ t.producer = none)
    (counts : ∀ q, (t.producers q).replacements = (s.producers q).replacements) : Replaceable t := by
  have older : ∀ q, t.producer = some q → s.producer = some q := by
    intro q current
    rcases producer with same | gone
    · rw [← same]
      exact current
    · rw [gone] at current
      cases current
  constructor
  · intro k l p first second
    exact h.apart k l p (fewer k p first) (fewer l p second)
  · intro k p pending
    obtain ⟨known, unreplaced, apart⟩ := h.waiting k p (fewer k p pending)
    rw [next, counts]
    exact ⟨known, unreplaced, fun current => apart (older p current)⟩
  · intro p current
    rw [next, counts]
    exact h.current p (older p current)
  · intro p
    rw [counts]
    exact h.once p

theorem replaceable_makes (h : Replaceable s) {k : Attempt}
    (fewer : ∀ l q, t.pending l = some q → (l = k ∧ q = s.nextProducer) ∨ s.pending l = some q)
    (next : t.nextProducer = s.nextProducer + 1) (producer : t.producer = s.producer)
    (fresh : (t.producers s.nextProducer).replacements = 0)
    (counts : ∀ q, q ≠ s.nextProducer → (t.producers q).replacements = (s.producers q).replacements) :
    Replaceable t := by
  have older : ∀ l q, s.pending l = some q → q ≠ s.nextProducer := by
    intro l q pending
    exact Nat.ne_of_lt (h.waiting l q pending).1
  have unmade : s.producer ≠ some s.nextProducer := by
    intro current
    exact Nat.lt_irrefl _ (h.current _ current).1
  constructor
  · intro l m p first second
    rcases fewer l p first with ⟨left, new⟩ | before
    · rcases fewer m p second with ⟨right, -⟩ | before
      · rw [left, right]
      · exact absurd new (older m p before)
    · rcases fewer m p second with ⟨-, new⟩ | also
      · exact absurd new (older l p before)
      · exact h.apart l m p before also
  · intro l p pending
    rw [next, producer]
    rcases fewer l p pending with ⟨-, new⟩ | before
    · rw [new]
      exact ⟨Nat.lt_succ_self _, fresh, unmade⟩
    · obtain ⟨known, unreplaced, apart⟩ := h.waiting l p before
      rw [counts p (older l p before)]
      exact ⟨Nat.lt_succ_of_lt known, unreplaced, apart⟩
  · intro p current
    rw [producer] at current
    obtain ⟨known, unreplaced⟩ := h.current p current
    rw [next, counts p (Nat.ne_of_lt known)]
    exact ⟨Nat.lt_succ_of_lt known, unreplaced⟩
  · intro p
    by_cases new : p = s.nextProducer
    · rw [new, fresh]
      exact Nat.zero_le 1
    · rw [counts p new]
      exact h.once p

theorem replaceable_takes (h : Replaceable s) {k : Attempt} {p : Nat} (pending : s.pending k = some p)
    (fewer : ∀ l q, t.pending l = some q → l ≠ k ∧ s.pending l = some q) (next : t.nextProducer = s.nextProducer)
    (producer : t.producer = some p) (counts : ∀ q, (t.producers q).replacements = (s.producers q).replacements) :
    Replaceable t := by
  obtain ⟨known, unreplaced, -⟩ := h.waiting k p pending
  constructor
  · intro l m q first second
    exact h.apart l m q (fewer l q first).2 (fewer m q second).2
  · intro l q other
    obtain ⟨apart, before⟩ := fewer l q other
    rw [next, counts, producer]
    refine ⟨(h.waiting l q before).1, (h.waiting l q before).2.1, ?_⟩
    intro same
    cases same
    exact apart (h.apart l k p before pending)
  · intro q current
    rw [producer] at current
    cases current
    rw [next, counts]
    exact ⟨known, unreplaced⟩
  · intro q
    rw [counts]
    exact h.once q

theorem replaceable_replaces (h : Replaceable s) {k : Attempt} {failed p : Nat} (pending : s.pending k = some p)
    (fewer : ∀ l q, t.pending l = some q → l ≠ k ∧ s.pending l = some q) (next : t.nextProducer = s.nextProducer)
    (current : s.producer = some failed) (producer : t.producer = some p)
    (counted : (t.producers failed).replacements = (s.producers failed).replacements + 1)
    (counts : ∀ q, q ≠ failed → (t.producers q).replacements = (s.producers q).replacements) : Replaceable t := by
  have apart : ∀ l q, s.pending l = some q → q ≠ failed := by
    intro l q waiting same
    rw [same] at waiting
    exact (h.waiting l failed waiting).2.2 current
  constructor
  · intro l m q first second
    exact h.apart l m q (fewer l q first).2 (fewer m q second).2
  · intro l q other
    obtain ⟨another, before⟩ := fewer l q other
    rw [next, counts q (apart l q before), producer]
    refine ⟨(h.waiting l q before).1, (h.waiting l q before).2.1, ?_⟩
    intro same
    cases same
    exact another (h.apart l k p before pending)
  · intro q now
    rw [producer] at now
    cases now
    rw [next, counts p (apart k p pending)]
    exact ⟨(h.waiting k p pending).1, (h.waiting k p pending).2.1⟩
  · intro q
    by_cases same : q = failed
    · rw [same, counted, (h.current failed current).2]
    · rw [counts q same]
      exact h.once q

theorem replaceable_hands (h : Replaceable s) (hands : Hands s t) : Replaceable t := by
  cases hands with
  | rests fewer next producer counts => exact replaceable_rests h fewer next producer counts
  | makes k fewer next producer fresh counts => exact replaceable_makes h fewer next producer fresh counts
  | takes k p pending fewer next producer counts => exact replaceable_takes h pending fewer next producer counts
  | replaces k failed p pending fewer next current producer counted counts =>
    exact replaceable_replaces h pending fewer next current producer counted counts

theorem pending_setStart {id : Nat} {phase : StartPhase} (l : Attempt) :
    (s.setStart id phase).pending l = if l = .start id then phase.pending else s.pending l := by
  cases l with
  | start k =>
    by_cases same : k = id
    · subst same
      simp [State.pending, State.setStart]
    · simp [State.pending, State.setStart, same]
  | recovery r => simp [State.pending, State.setStart]

theorem pending_setRecovery {r : Nat} {phase : RecoveryPhase} (ends : phase ≠ .connecting) (l : Attempt) :
    (s.setRecovery r phase).pending l = if l = .recovery r then none else s.pending l := by
  cases l with
  | start k => simp [State.pending, State.setRecovery]
  | recovery k =>
    by_cases same : k = r
    · subst same
      simp [State.pending, State.setRecovery, Recovery.pending, ends]
    · simp [State.pending, State.setRecovery, same]

theorem fewer_setStart {id : Nat} (phase : StartPhase) (none : phase.pending = none) {l : Attempt} {q : Nat}
    (pending : (s.setStart id phase).pending l = some q) : l ≠ .start id ∧ s.pending l = some q := by
  rw [pending_setStart, none] at pending
  split at pending
  · cases pending
  · rename_i other
    exact ⟨other, pending⟩

theorem fewer_setRecovery {r : Nat} (phase : RecoveryPhase) (ends : phase ≠ .connecting) {l : Attempt} {q : Nat}
    (pending : (s.setRecovery r phase).pending l = some q) : l ≠ .recovery r ∧ s.pending l = some q := by
  rw [pending_setRecovery ends] at pending
  split at pending
  · cases pending
  · rename_i other
    exact ⟨other, pending⟩

theorem hands_aside (starts : t.starts = s.starts) (recoveries : t.recoveries = s.recoveries)
    (next : t.nextProducer = s.nextProducer) (producer : t.producer = s.producer ∨ t.producer = none)
    (counts : ∀ q, (t.producers q).replacements = (s.producers q).replacements) : Hands s t := by
  apply Hands.rests _ next producer counts
  intro l q pending
  cases l with
  | start id => simpa only [State.pending, starts] using pending
  | recovery r => simpa only [State.pending, recoveries] using pending

theorem hands_setStart {id : Nat} (phase : StartPhase) (none : phase.pending = none)
    (starts : t.starts = update s.starts id phase)
    (recoveries : t.recoveries = s.recoveries) (next : t.nextProducer = s.nextProducer)
    (producer : t.producer = s.producer ∨ t.producer = Option.none)
    (counts : ∀ q, (t.producers q).replacements = (s.producers q).replacements) : Hands s t := by
  apply Hands.rests _ next producer counts
  intro l q pending
  have same : t.pending l = (s.setStart id phase).pending l := by
    cases l with
    | start k => simp only [State.pending, State.setStart, starts]
    | recovery r => simp only [State.pending, State.setStart, recoveries]
  rw [same] at pending
  exact (fewer_setStart phase none pending).2

theorem counts_setProducer {p : Nat} {content : Producer} (same : content.replacements = (s.producers p).replacements)
    (q : Nat) : ((s.setProducer p content).producers q).replacements = (s.producers q).replacements := by
  by_cases here : q = p
  · subst here
    simp [State.setProducer, same]
  · simp [State.setProducer, update_of_ne here]

theorem counts_connect (p q : Nat) : ((s.connect p).producers q).replacements = (s.producers q).replacements := by
  unfold State.connect
  apply counts_setProducer
  rfl

theorem counts_disconnect (p q : Nat) : ((s.disconnect p).producers q).replacements = (s.producers q).replacements := by
  unfold State.disconnect
  apply counts_setProducer
  rfl

theorem hands_recoverProducer {i p : Nat} {makes : Bool} : Hands s (s.recoverProducer i p makes) := by
  unfold State.recoverProducer
  split
  · exact hands_aside rfl rfl rfl (.inl rfl) (fun _ => rfl)
  · split
    · exact hands_aside rfl rfl rfl (.inl rfl) (fun _ => rfl)
    · simp only
      have others : ∀ (recovery : Recovery) l q, l ≠ .recovery s.nextRecovery →
          ({ s with recoveries := update s.recoveries s.nextRecovery recovery } : State).pending l = some q →
          s.pending l = some q := by
        intro recovery l q other pending
        cases l with
        | start id => exact pending
        | recovery r =>
          have apart : r ≠ s.nextRecovery := fun same => other (by rw [same])
          simpa [State.pending, update_of_ne apart] using pending
      cases makes with
      | true =>
        apply Hands.makes (.recovery s.nextRecovery)
        · intro l q pending
          by_cases new : l = .recovery s.nextRecovery
          · subst new
            have fresh : some s.nextProducer = some q := by
              simpa [State.pending, Recovery.pending, State.makeProducer, State.setPhase, State.setSend] using pending
            cases fresh
            exact .inl ⟨rfl, rfl⟩
          · exact .inr (others _ l q new pending)
        · rfl
        · rfl
        · simp [State.makeProducer, State.setPhase, State.setSend]
        · intro q other
          simp [State.makeProducer, State.setPhase, State.setSend, update_of_ne other]
      | false =>
        apply Hands.rests
        · intro l q pending
          by_cases new : l = .recovery s.nextRecovery
          · subst new
            simp [State.pending, Recovery.pending, State.setPhase, State.setSend] at pending
          · exact others _ l q new pending
        · rfl
        · exact .inl rfl
        · exact fun _ => rfl

theorem hands_replaced {r : Nat} {ok : Bool} (next : step s (.replaced r ok) = some t) : Hands s t := by
  simp only [step, State.replaced] at next
  split at next
  · rename_i phase
    have pending : s.pending (.recovery r) = some (s.recoveries r).replacement := by
      simp [State.pending, Recovery.pending, phase]
    split at next
    · split at next
      · cases next
        apply Hands.rests
        · intro l q waiting
          exact (fewer_setRecovery (s := s) .disconnecting (by simp) waiting).2
        · rfl
        · exact .inl rfl
        · intro q
          exact (counts_disconnect _ q).trans (counts_connect _ q)
      · rename_i current
        cases next
        have producer : s.producer = some (s.recoveries r).failed := by
          by_contra other
          exact current (.inr other)
        apply Hands.replaces (.recovery r) (s.recoveries r).failed (s.recoveries r).replacement pending
        · intro l q waiting
          exact fewer_setRecovery (s := s) .disconnecting (by simp) waiting
        · rfl
        · exact producer
        · rfl
        · refine (counts_disconnect _ _).trans ?_
          simp [State.setProducer, counts_connect]
        · intro q other
          refine (counts_disconnect _ q).trans ?_
          simp [State.setProducer, update_of_ne other, counts_connect]
    · cases next
      apply Hands.rests
      · intro l q waiting
        exact (fewer_setRecovery (s := s) .settled (by simp) waiting).2
      · rfl
      · exact .inl rfl
      · exact fun _ => rfl
  · cases next

theorem hands_step (next : step s a = some t) : Hands s t := by
  by_cases delivery : a.delivery = true
  · have same := delivery_producers delivery next
    apply hands_aside same.starts same.recoveries same.nextProducer (.inl same.producer)
    intro q
    rw [same.producers]
  · cases a with
    | start setup =>
      cases next
      unfold State.start
      simp only
      split
      · exact hands_setStart (.settled false) rfl rfl rfl rfl (.inl rfl) (fun _ => rfl)
      · cases setup with
        | disabled => exact hands_setStart (.settled true) rfl rfl rfl rfl (.inl rfl) (fun _ => rfl)
        | broken => exact hands_setStart (.settled false) rfl rfl rfl rfl (.inl rfl) (fun _ => rfl)
        | complete => exact hands_setStart .preparing rfl rfl rfl rfl (.inl rfl) (fun _ => rfl)
    | prepared id outcome =>
      simp only [step, State.prepared] at next
      split at next
      · cases outcome with
        | failed =>
          cases next
          exact hands_setStart (.settled false) rfl rfl rfl rfl (.inl rfl) (fun _ => rfl)
        | unmade =>
          cases next
          exact hands_setStart (.settled false) rfl rfl rfl rfl (.inl rfl) (fun _ => rfl)
        | made =>
          cases next
          apply Hands.makes (.start id)
          · intro l q pending
            rw [pending_setStart] at pending
            split at pending
            · rename_i here
              cases pending
              exact .inl ⟨here, rfl⟩
            · exact .inr pending
          · rfl
          · rfl
          · simp [State.makeProducer, State.setStart]
          · intro q other
            simp [State.makeProducer, State.setStart, update_of_ne other]
      · cases next
    | connected id ok =>
      simp only [step, State.connected] at next
      split at next
      · rename_i p phase
        have pending : s.pending (.start id) = some p := by
          simp [State.pending, StartPhase.pending, phase]
        split at next
        · cases next
          apply Hands.takes (.start id) p pending
          · intro l q waiting
            exact fewer_setStart (s := s) (.activating p) rfl waiting
          · rfl
          · rfl
          · exact counts_connect p
        · cases next
          exact hands_setStart (.failing p) rfl rfl rfl rfl (.inr rfl) (fun _ => rfl)
      · cases next
    | activated id ok =>
      simp only [step, State.activated] at next
      split at next
      · rename_i p phase
        split at next
        · cases next
          exact hands_setStart (.settled true) rfl rfl rfl rfl (.inl rfl) (fun _ => rfl)
        · cases next
          exact hands_setStart (.failing p) rfl rfl rfl rfl (.inr rfl) (fun _ => rfl)
      · cases next
    | endpointsLeft id =>
      simp only [step, State.endpointsLeft] at next
      split at next
      · rename_i p phase
        cases next
        exact hands_setStart (.disconnecting p) rfl rfl rfl rfl (.inl rfl) (counts_disconnect p)
      · cases next
    | startDisconnected id =>
      simp only [step, State.startDisconnected] at next
      split at next
      · cases next
        exact hands_setStart (.settled false) rfl rfl rfl rfl (.inl rfl) (fun _ => rfl)
      · cases next
    | stop =>
      cases next
      unfold State.stop
      simp only
      split
      · exact hands_aside rfl rfl rfl (.inl rfl) (fun _ => rfl)
      · exact hands_aside rfl rfl rfl (.inl rfl) (fun _ => rfl)
    | endpointsStopped id ok =>
      simp only [step, State.endpointsStopped] at next
      split at next
      · split at next
        · split at next
          · cases next
            exact hands_aside rfl rfl rfl (.inl rfl) (fun _ => rfl)
          · cases next
            exact hands_aside rfl rfl rfl (.inl rfl) (fun _ => rfl)
        · cases next
          exact hands_aside rfl rfl rfl (.inl rfl) (fun _ => rfl)
      · cases next
    | drained id ok =>
      simp only [step, State.drained] at next
      split at next
      · rename_i p phase
        split at next
        · split at next
          · cases next
            exact hands_aside rfl rfl rfl (.inl rfl) (fun _ => rfl)
          · cases next
        · cases next
          exact hands_aside rfl rfl rfl (.inr rfl) (counts_disconnect p)
      · cases next
    | flushed id =>
      simp only [step, State.flushed] at next
      split at next
      · rename_i p phase
        cases next
        exact hands_aside rfl rfl rfl (.inr rfl) (counts_disconnect p)
      · cases next
    | stopDisconnected id =>
      simp only [step, State.stopDisconnected] at next
      split at next
      · cases next
        exact hands_aside rfl rfl rfl (.inl rfl) (fun _ => rfl)
      · cases next
    | sent i ok makes =>
      simp only [step, State.sent] at next
      split at next
      · cases next
        split
        · exact hands_aside rfl rfl rfl (.inl rfl) (fun _ => rfl)
        · exact hands_recoverProducer
      · cases next
    | replaced r ok => exact hands_replaced next
    | recoveryDisconnected r =>
      simp only [step, State.recoveryDisconnected] at next
      split at next
      · cases next
        apply Hands.rests
        · intro l q waiting
          exact (fewer_setRecovery (s := s) .settled (by simp) waiting).2
        · rfl
        · exact .inl rfl
        · exact fun _ => rfl
      · cases next
    | _ => exact absurd rfl delivery

theorem replaceable_initial : Replaceable {} := by
  constructor
  · intro k l p pending
    cases k with
    | start id => cases pending
    | recovery r => cases pending
  · intro k p pending
    cases k with
    | start id => cases pending
    | recovery r => cases pending
  · nofun
  · exact fun _ => Nat.zero_le 1

theorem replaceable_reachable {ok : State → Action → Prop} (reach : ReachableWith ok s) : Replaceable s := by
  apply steps_invariant Replaceable _ reach replaceable_initial
  intro s a t h _ next
  exact replaceable_hands h (hands_step next)

end Steps

end KafkaSinks
