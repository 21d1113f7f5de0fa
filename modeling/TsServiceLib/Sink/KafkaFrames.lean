import TsServiceLib.Sink.KafkaSink

/-!
What the steps of a Kafka sink leave alone. The starts and the stops touch no send
and no recovery; a send touches the producers only where one of its own fails.
-/
namespace KafkaSinks

def Action.lifecycle : Action → Bool
  | .start _ => true
  | .prepared _ _ => true
  | .connected _ _ => true
  | .activated _ _ => true
  | .endpointsLeft _ => true
  | .startDisconnected _ => true
  | .stop => true
  | .endpointsStopped _ _ => true
  | .drained _ _ => true
  | .flushed _ => true
  | .stopDisconnected _ => true
  | _ => false

/-- The steps of the sends, but for the one in which the producer has settled. -/
def Action.delivery : Action → Bool
  | .send _ _ => true
  | .partitioned _ _ => true
  | .recovered _ => true
  | .fails _ => true
  | .delivered _ => true
  | .aborts _ => true
  | _ => false

/-- The sends and the recoveries are the same. -/
structure SameDeliveries (s t : State) : Prop where
  sends : t.sends = s.sends
  nextSend : t.nextSend = s.nextSend
  producerRecovery : t.producerRecovery = s.producerRecovery
  recoveries : t.recoveries = s.recoveries
  nextRecovery : t.nextRecovery = s.nextRecovery

/-- The producers, and what starts, stops and recovers them, are the same. -/
structure SameProducers (s t : State) : Prop where
  started : t.started = s.started
  producer : t.producer = s.producer
  producers : t.producers = s.producers
  nextProducer : t.nextProducer = s.nextProducer
  recoveries : t.recoveries = s.recoveries
  starts : t.starts = s.starts
  nextStart : t.nextStart = s.nextStart
  stops : t.stops = s.stops
  nextStop : t.nextStop = s.nextStop

section Frames
variable {s t : State} {a : Action}

theorem lifecycle_deliveries (lifecycle : a.lifecycle = true) (next : step s a = some t) : SameDeliveries s t := by
  cases a with
  | start setup =>
    cases next
    unfold State.start
    simp only
    split
    · constructor <;> rfl
    · cases setup <;> constructor <;> rfl
  | prepared id outcome =>
    simp only [step, State.prepared] at next
    split at next
    · cases outcome <;> cases next <;> constructor <;> rfl
    · cases next
  | connected id ok =>
    simp only [step, State.connected] at next
    split at next
    · split at next <;> cases next <;> constructor <;> rfl
    · cases next
  | activated id ok =>
    simp only [step, State.activated] at next
    split at next
    · split at next <;> cases next <;> constructor <;> rfl
    · cases next
  | endpointsLeft id | startDisconnected id | flushed id | stopDisconnected id =>
    simp only [step, State.endpointsLeft, State.startDisconnected, State.flushed, State.stopDisconnected] at next
    split at next
    · cases next
      constructor <;> rfl
    · cases next
  | stop =>
    cases next
    unfold State.stop
    simp only
    split <;> constructor <;> rfl
  | endpointsStopped id ok =>
    simp only [step, State.endpointsStopped] at next
    split at next
    · split at next
      · split at next <;> cases next <;> constructor <;> rfl
      · cases next
        constructor <;> rfl
    · cases next
  | drained id ok =>
    simp only [step, State.drained] at next
    split at next
    · split at next
      · split at next
        · cases next
          constructor <;> rfl
        · cases next
      · cases next
        constructor <;> rfl
    · cases next
  | _ => cases lifecycle

theorem delivery_producers (delivery : a.delivery = true) (next : step s a = some t) : SameProducers s t := by
  have sameSend : ∀ i x, SameProducers s (s.setSend i x) := by
    intro i x
    constructor <;> rfl
  cases a with
  | send sync aborted =>
    cases next
    unfold State.send
    simp only
    split <;> constructor <;> rfl
  | partitioned i ok =>
    simp only [step, State.partitioned] at next
    split at next
    · split at next
      · split at next <;> cases next <;> exact sameSend i _
      · cases next
        exact sameSend i _
    · cases next
  | recovered i =>
    simp only [step, State.recovered] at next
    split at next
    · cases next
      exact sameSend i _
    · split at next
      · cases next
        split <;> constructor <;> rfl
      · cases next
    · cases next
  | fails i | aborts i =>
    simp only [step, State.fails, State.aborts] at next
    split at next
    · cases next
      exact sameSend i _
    · cases next
  | delivered i =>
    simp only [step, State.delivered] at next
    split at next
    · cases next
      constructor <;> rfl
    · cases next
  | _ => cases delivery

end Frames

end KafkaSinks
