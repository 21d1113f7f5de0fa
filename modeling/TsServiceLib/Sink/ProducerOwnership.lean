import TsServiceLib.Sink.ProducerReplacement

/-!
Who answers for a producer that has connected: the sink whose current one it is, or a
start that has failed and stops its endpoints first; otherwise `disconnect` has been
called. A start does not look again whether it has been stopped when its producer is
connected, and a stop gives up what is current at its end, so this is kept as long as
starts and stops keep out of each other's way. `Orderly` says which steps do.
-/
namespace KafkaSinks
open Transitions Function

/-- The start has not come to its producer yet. -/
def StartPhase.opening : StartPhase → Bool
  | .preparing => true
  | .connecting _ => true
  | _ => false

/-- The stop has not given the producer up yet. -/
def StopPhase.holding : StopPhase → Bool
  | .stopping => true
  | .draining _ => true
  | .flushing _ => true
  | _ => false

def StopPhase.found : StopPhase → Option Nat
  | .draining p => some p
  | .flushing p => some p
  | _ => none

/-- No start begins while a stop is under way, no stop comes while a start has not come
    to its producer or while another stop still holds one, no endpoint rejects its stop
    under a current producer, and a start whose endpoints fail finds its own producer
    or none, and no later start at work. -/
def Orderly (s : State) : Action → Prop
  | .start setup => s.started = false → setup = .complete ∨ s.producer ≠ none → ∀ id, s.stops id = .settled
  | .stop =>
    if s.started = true then ∀ id, (s.starts id).opening = false
    else ∀ id, (s.stops id).holding = true → s.producer = none
  | .endpointsStopped _ ok => ok = false → s.producer = none
  | .activated id ok => ok = false →
      (∀ k, (s.starts k).opening = false) ∧ ∀ p q, s.starts id = .activating p → s.producer = some q → q = p
  | _ => True

structure Owned (s : State) : Prop where
  owner : ∀ p, (s.producers p).connected = true →
    s.producer = some p ∨ 0 < (s.producers p).disconnects ∨ ∃ id, s.starts id = .failing p
  opening : ∀ id, (s.starts id).opening = true → s.started = true ∧ s.producer = none ∧ ∀ k, s.stops k = .settled
  single : ∀ id k, (s.starts id).opening = true → (s.starts k).opening = true → id = k
  found : ∀ k p q, (s.stops k).found = some p → s.producer = some q → q = p
  stopping : ∀ k, s.stops k ≠ .settled → s.started = true → s.producer = none
  released : ∀ k, s.stops k = .disconnecting → s.producer = none
  holder : s.producer ≠ none → s.started = false → ∃ k, (s.stops k).holding = true
  begun : ∀ id, s.starts id ≠ .settled false → id < s.nextStart
  called : ∀ k, s.stops k ≠ .settled → k < s.nextStop

/-- No producer is current, and none is about to be. -/
structure Quiet (s : State) : Prop where
  producer : s.producer = none
  unopened : ∀ id, (s.starts id).opening = false

/-- The step settles the stop, which may have been called by it. -/
def Settles (id : Nat) (s t : State) : Prop :=
  t.stops id = .settled ∧ id < t.nextStop ∧ (s.stops id ≠ .settled ∨ s.nextStop ≤ id)

/-- Producers that were connected and have not been disconnected were so before. -/
def Retains (s t : State) : Prop := ∀ p, (t.producers p).connected = true →
  0 < (t.producers p).disconnects ∨
    ((s.producers p).connected = true ∧ (s.producers p).disconnects ≤ (t.producers p).disconnects)

section Owned
variable {s t u : State} {a : Action} {id p : Nat}

theorem retains_same (producers : t.producers = s.producers) : Retains s t := by
  intro p connected
  rw [producers] at connected ⊢
  exact .inr ⟨connected, le_rfl⟩

theorem retains_setProducer {content : Producer}
    (own : content.connected = true → 0 < content.disconnects ∨
      ((s.producers p).connected = true ∧ (s.producers p).disconnects ≤ content.disconnects))
    (producers : t.producers = update s.producers p content) : Retains s t := by
  intro q connected
  rw [producers] at connected ⊢
  by_cases same : q = p
  · subst same
    rw [update_self] at connected ⊢
    exact own connected
  · rw [update_of_ne same] at connected ⊢
    exact .inr ⟨connected, le_rfl⟩

theorem retains_disconnect (p : Nat) : Retains s (s.disconnect p) :=
  retains_setProducer (fun _ => .inl (Nat.succ_pos _)) rfl

theorem retains_makeProducer : Retains s s.makeProducer :=
  retains_setProducer (fun connected => by cases connected) rfl

theorem owner_retains (h : Owned s) (retains : Retains s t) (producer : ∀ q, s.producer = some q → t.producer = some q)
    (starts : t.starts = s.starts) (q : Nat) (connected : (t.producers q).connected = true) :
    t.producer = some q ∨ 0 < (t.producers q).disconnects ∨ ∃ id, t.starts id = .failing q := by
  rcases retains q connected with gone | ⟨before, grows⟩
  · exact .inr (.inl gone)
  · rcases h.owner q before with current | gone | failing
    · exact .inl (producer q current)
    · exact .inr (.inl (Nat.lt_of_lt_of_le gone grows))
    · exact .inr (.inr (by rw [starts]; exact failing))

/-- The starts and the stops are where they were, though more may have been called. -/
structure SameLives (s t : State) : Prop where
  started : t.started = s.started
  producer : t.producer = s.producer
  starts : t.starts = s.starts
  stops : t.stops = s.stops
  begun : s.nextStart ≤ t.nextStart
  called : s.nextStop ≤ t.nextStop

theorem owned_aside (h : Owned s) (same : SameLives s t) (retains : Retains s t) : Owned t := by
  constructor
  · exact owner_retains h retains (fun q current => same.producer.trans current) same.starts
  · rw [same.starts, same.started, same.producer, same.stops]
    exact h.opening
  · rw [same.starts]
    exact h.single
  · rw [same.stops, same.producer]
    exact h.found
  · rw [same.stops, same.started, same.producer]
    exact h.stopping
  · rw [same.stops, same.producer]
    exact h.released
  · rw [same.producer, same.started, same.stops]
    exact h.holder
  · rw [same.starts]
    exact fun k phase => Nat.lt_of_lt_of_le (h.begun k phase) same.begun
  · rw [same.stops]
    exact fun k phase => Nat.lt_of_lt_of_le (h.called k phase) same.called

/-- What is so where a start has not come to its producer yet. -/
structure Alone (id : Nat) (s : State) : Prop where
  started : s.started = true
  producer : s.producer = none
  unstopped : ∀ k, s.stops k = .settled
  others : ∀ k, k ≠ id → (s.starts k).opening = false

theorem alone_of_opening (h : Owned s) (opening : (s.starts id).opening = true) : Alone id s := by
  obtain ⟨started, producer, unstopped⟩ := h.opening id opening
  refine ⟨started, producer, unstopped, ?_⟩
  intro k other
  by_contra also
  exact other (h.single k id (Bool.eq_true_of_not_eq_false also) opening)

theorem owned_setStart (h : Owned s) {phase : StartPhase} (known : id < s.nextStart)
    (opens : phase.opening = true → Alone id s)
    (failing : ∀ p, s.starts id = .failing p → 0 < (s.producers p).disconnects) : Owned (s.setStart id phase) := by
  have startAt : ∀ k, (s.setStart id phase).starts k = if k = id then phase else s.starts k := by
    intro k
    by_cases same : k = id <;> simp [State.setStart, same]
  constructor
  · intro p connected
    rcases h.owner p connected with current | gone | ⟨k, fails⟩
    · exact .inl current
    · exact .inr (.inl gone)
    · by_cases same : k = id
      · subst same
        exact .inr (.inl (failing p fails))
      · exact .inr (.inr ⟨k, by rw [startAt, if_neg same]; exact fails⟩)
  · intro k opening
    rw [startAt] at opening
    split at opening
    · have alone := opens opening
      exact ⟨alone.started, alone.producer, alone.unstopped⟩
    · exact h.opening k opening
  · intro k l first second
    rw [startAt] at first second
    split at first
    · rename_i here
      split at second
      · rename_i there
        rw [here, there]
      · rename_i there
        rw [(opens first).others l there] at second
        cases second
    · rename_i here
      split at second
      · rw [(opens second).others k here] at first
        cases first
      · exact h.single k l first second
  · exact h.found
  · exact h.stopping
  · exact h.released
  · exact h.holder
  · intro k unsettled
    rw [startAt] at unsettled
    split at unsettled
    · rename_i same
      rw [same]
      exact known
    · exact h.begun k unsettled
  · exact h.called

theorem owned_clear (h : Owned s)
    (covered : ∀ p, s.producer = some p → 0 < (s.producers p).disconnects ∨ ∃ id, s.starts id = .failing p) :
    Owned { s with producer := none } := by
  constructor
  · intro p connected
    rcases h.owner p connected with current | gone | failing
    · exact .inr (covered p current)
    · exact .inr (.inl gone)
    · exact .inr (.inr failing)
  · exact fun k opening => ⟨(h.opening k opening).1, rfl, (h.opening k opening).2.2⟩
  · exact h.single
  · nofun
  · exact fun _ _ _ => rfl
  · exact fun _ _ => rfl
  · exact fun current => absurd rfl current
  · exact h.begun
  · exact h.called

theorem owned_unstart (h : Owned s) (quiet : Quiet s) : Owned { s with started := false } := by
  constructor
  · exact h.owner
  · intro k opening
    have unopened : (s.starts k).opening = false := quiet.unopened k
    rw [show (s.starts k).opening = true from opening] at unopened
    cases unopened
  · exact h.single
  · exact h.found
  · nofun
  · exact h.released
  · exact fun current => absurd quiet.producer current
  · exact h.begun
  · exact h.called

theorem owned_begin (h : Owned s) (producer : s.producer = none) : Owned { s with started := true } := by
  constructor
  · exact h.owner
  · exact fun k opening => ⟨rfl, (h.opening k opening).2⟩
  · exact h.single
  · exact h.found
  · exact fun _ _ _ => producer
  · exact h.released
  · exact fun current => absurd producer current
  · exact h.begun
  · exact h.called

/-- A producer becomes current, and the one that was current is disconnected. -/
theorem owned_take (h : Owned s) (started : s.started = true) (unopened : ∀ id, (s.starts id).opening = false)
    (unstopped : ∀ k, s.stops k = .settled) (sameStarted : t.started = s.started) (starts : t.starts = s.starts)
    (nextStart : t.nextStart = s.nextStart) (stops : t.stops = s.stops) (producer : t.producer = some p)
    (retains : ∀ q, q ≠ p → (t.producers q).connected = true →
      0 < (t.producers q).disconnects ∨ (s.producer ≠ some q ∧ (s.producers q).connected = true ∧
        (s.producers q).disconnects ≤ (t.producers q).disconnects)) : Owned t := by
  constructor
  · intro q connected
    by_cases taken : q = p
    · subst taken
      exact .inl producer
    · rcases retains q taken connected with gone | ⟨other, before, grows⟩
      · exact .inr (.inl gone)
      · rcases h.owner q before with current | gone | failing
        · exact absurd current other
        · exact .inr (.inl (Nat.lt_of_lt_of_le gone grows))
        · exact .inr (.inr (by rw [starts]; exact failing))
  · intro k opening
    rw [starts, unopened k] at opening
    cases opening
  · intro k l opening
    rw [starts, unopened k] at opening
    cases opening
  · intro k x y found
    rw [stops, unstopped k] at found
    cases found
  · intro k unsettled
    rw [stops] at unsettled
    exact absurd (unstopped k) unsettled
  · intro k releasing
    rw [stops, unstopped k] at releasing
    cases releasing
  · intro _ unstarted
    rw [sameStarted, started] at unstarted
    cases unstarted
  · rw [starts, nextStart]
    exact h.begun
  · intro k unsettled
    rw [stops] at unsettled
    exact absurd (unstopped k) unsettled

theorem owned_setStop (h : Owned s) {phase : StopPhase} (known : id < s.nextStop) (apart : phase ≠ .settled →
      (∀ k, (s.starts k).opening = false) ∧ (s.started = true → s.producer = none))
    (found : ∀ p q, phase.found = some p → s.producer = some q → q = p)
    (released : phase = .disconnecting → s.producer = none)
    (holds : (s.stops id).holding = true → phase.holding = true ∨ s.producer = none) : Owned (s.setStop id phase) := by
  have stopAt : ∀ k, (s.setStop id phase).stops k = if k = id then phase else s.stops k := by
    intro k
    by_cases same : k = id <;> simp [State.setStop, same]
  constructor
  · exact h.owner
  · intro k opening
    refine ⟨(h.opening k opening).1, (h.opening k opening).2.1, ?_⟩
    intro l
    rw [stopAt]
    split
    · by_contra unsettled
      have unopened : (s.starts k).opening = false := (apart unsettled).1 k
      rw [show (s.starts k).opening = true from opening] at unopened
      cases unopened
    · exact (h.opening k opening).2.2 l
  · exact h.single
  · intro k p q finds current
    rw [stopAt] at finds
    split at finds
    · exact found p q finds current
    · exact h.found k p q finds current
  · intro k unsettled started
    rw [stopAt] at unsettled
    split at unsettled
    · exact (apart unsettled).2 started
    · exact h.stopping k unsettled started
  · intro k releasing
    rw [stopAt] at releasing
    split at releasing
    · exact released releasing
    · exact h.released k releasing
  · intro current unstarted
    obtain ⟨k, holding⟩ := h.holder current unstarted
    by_cases same : k = id
    · subst same
      rcases holds holding with still | gone
      · exact ⟨k, by rw [stopAt, if_pos rfl]; exact still⟩
      · exact absurd gone current
    · exact ⟨k, by rw [stopAt, if_neg same]; exact holding⟩
  · exact h.begun
  · intro k unsettled
    rw [stopAt] at unsettled
    split at unsettled
    · rename_i same
      rw [same]
      exact known
    · exact h.called k unsettled

theorem apart_of_unsettled (h : Owned s) {k : Nat} (unsettled : s.stops k ≠ .settled) :
    (∀ id, (s.starts id).opening = false) ∧ (s.started = true → s.producer = none) := by
  constructor
  · intro id
    by_contra opening
    exact unsettled ((h.opening id (Bool.eq_true_of_not_eq_false opening)).2.2 k)
  · exact h.stopping k unsettled

end Owned

end KafkaSinks
