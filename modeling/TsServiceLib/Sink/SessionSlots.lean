import TsServiceLib.Sink.GrpcSessions

/-!
What a slot knows of its session. The closing of a slot is for good, and from then
on nobody is admitted, so the consumers that `finishSession` takes when it closes
are all there will be. A key keeps its slot until the slot takes itself away.
-/
namespace GrpcSessions
open Transitions Function

/-- The closing has begun. -/
def Phase.past : Phase → Bool
  | .beginning => false
  | .waiting => false
  | _ => true

/-- The request has been ended, if it had begun. -/
def Phase.ended : Phase → Bool
  | .abandoning => true
  | .ending => true
  | .finished => true
  | _ => false

/-- `createSession` has not come to a session. -/
def Phase.creating : Phase → Bool
  | .beginning => true
  | .abandoning => true
  | _ => false

/-- The phase waits for the consumer, or goes on to one that will. -/
def Phase.Awaits (c : Nat) : Phase → Prop
  | .settling snapshot => c ∈ snapshot
  | .beginning => False
  | .abandoning => False
  | .ending => False
  | .finished => False
  | _ => True

/-- The consumers that the phase waits for. -/
def Phase.snapshot : Phase → Finset Nat
  | .draining snapshot => snapshot
  | .settling snapshot => snapshot
  | _ => ∅

/-- Only a client stream handles its response between its consumers and the end. -/
def Phase.unary : Phase → Bool
  | .draining _ => true
  | .handling => true
  | _ => false

/-- The session is open, or finishing and its request has not been ended. -/
def Phase.Open (phase : Phase) : Prop := phase ≠ .beginning ∧ phase.ended = false

theorem open_not_finished {phase : Phase} (isOpen : phase.Open) : phase ≠ .finished := by
  intro finished
  rw [finished] at isOpen
  cases isOpen.2

namespace Slot

structure Coherent (x : Slot) : Prop where
  closed : x.phase.past = true → x.closing = true
  begun : x.phase ≠ .finished → (x.begun = true ↔ x.phase ≠ .beginning)
  ended : x.endings = if x.phase.ended = true ∧ x.begun = true then 1 else 0
  resolved : x.ready = .resolved → x.session = true
  created : x.creation = .returned true → x.session = true
  session : x.session = true → x.phase.creating = false
  opened : x.phase.Open → x.session = true
  shut : ∀ responses, x.phase = .closing responses → x.active = false
  single : x.kind = .clientStreaming → x.received ≠ .handling
  unary : x.phase.unary = true → x.kind = .clientStreaming

/-- The slot waits for the consumer before it ends the request. -/
def Holds (x : Slot) (c : Nat) : Prop := c ∈ x.consumers ∧ x.phase.Awaits c

/-- The session has the consumer, or has had it when it began to wait. -/
def Member (x : Slot) (c : Nat) : Prop := c ∈ x.consumers ∨ c ∈ x.phase.snapshot

/-- The fields that say how far the request has come are the same. -/
structure SameRequest (x y : Slot) : Prop where
  key : y.key = x.key
  kind : y.kind = x.kind
  begun : y.begun = x.begun
  endings : y.endings = x.endings
  ready : y.ready = x.ready
  creation : y.creation = x.creation
  session : y.session = x.session

/-- A move in which the slot stays and the request is not ended. -/
structure Follows (x y : Slot) : Prop where
  key : y.key = x.key
  coherent : x.Coherent → y.Coherent
  finished : y.phase = .finished ↔ x.phase = .finished
  closing : x.closing = true → y.closing = true
  endings : y.endings = x.endings
  holds : ∀ c, x.Holds c → y.Holds c
  members : ∀ c, y.Member c → x.Member c
  creating : y.phase.creating = true → x.phase.creating = true

theorem coherent_default : Coherent {} := by
  constructor <;> simp [Phase.past, Phase.Open, Phase.ended, Phase.unary]

theorem coherent_opened (kind : Kind) (k : Key) :
    Coherent { key := k, kind := kind, closing := false, ready := .pending, creation := .running, phase := .beginning } := by
  constructor <;> simp [Phase.past, Phase.ended, Phase.Open, Phase.unary]

section Moves
variable {x y : Slot}

theorem coherent_begin (hx : x.Coherent) (phase : x.phase = .beginning) (opens : Bool) : (x.begin opens).Coherent := by
  have unended : x.endings = 0 := by
    rw [hx.ended, phase]
    rfl
  have unbegun : x.session = false := by
    cases session : x.session with
    | false => rfl
    | true =>
      have creating := hx.session session
      rw [phase] at creating
      cases creating
  have unready : x.ready ≠ .resolved := by
    intro resolved
    rw [hx.resolved resolved] at unbegun
    cases unbegun
  cases opens with
  | true =>
    constructor
    · simp [begin, Phase.past]
    · simp [begin]
    · simp [begin, Phase.ended, unended]
    · simp [begin]
    · simp [begin]
    · simp [begin, Phase.creating]
    · simp [begin]
    · simp [begin]
    · exact hx.single
    · nofun
  | false =>
    constructor
    · simp [begin]
    · simp [begin]
    · simp [begin, Phase.ended, unended]
    · simp [begin]
    · intro created
      exact hx.created created
    · intro session
      rw [show (x.begin false).session = x.session from rfl, unbegun] at session
      cases session
    · intro isOpen
      cases isOpen.2
    · nofun
    · exact hx.single
    · nofun

theorem coherent_dismiss (hx : x.Coherent) (creating : x.phase.creating = true) : x.dismiss.Coherent := by
  have endings : x.endings = if x.begun = true then 1 else 0 := by
    rw [hx.ended]
    cases phase : x.phase with
    | beginning =>
      have unbegun : ¬x.begun = true := by
        intro begun
        exact (hx.begun (by rw [phase]; nofun)).mp begun phase
      simp [unbegun]
    | abandoning => simp [Phase.ended]
    | _ =>
      rw [phase] at creating
      cases creating
  have unsession : ¬x.session = true := by
    intro session
    rw [hx.session session] at creating
    cases creating
  constructor
  · simp [dismiss]
  · simp [dismiss]
  · simpa [dismiss, Phase.ended] using endings
  · simp [dismiss]
  · simp [dismiss]
  · intro session
    exact absurd session unsession
  · intro isOpen
    cases isOpen.2
  · nofun
  · exact hx.single
  · nofun

theorem follows_past (isOpen : x.phase.Open) (same : SameRequest x y) (closing : y.closing = true)
    (past : y.phase.past = true) (unended : y.phase.ended = false)
    (holds : ∀ c, c ∈ x.consumers → c ∈ y.consumers ∧ y.phase.Awaits c) (members : ∀ c, y.Member c → c ∈ x.consumers)
    (shut : ∀ responses, y.phase = .closing responses → y.active = false) (received : y.received = x.received)
    (unary : x.Coherent → y.phase.unary = true → y.kind = .clientStreaming) : Follows x y := by
  have begun : y.phase ≠ .beginning := by
    intro beginning
    rw [beginning] at past
    cases past
  have live : y.phase ≠ .finished := open_not_finished ⟨begun, unended⟩
  have created : y.phase.creating = false := by
    cases phase : y.phase with
    | beginning => exact absurd phase begun
    | abandoning =>
      rw [phase] at unended
      cases unended
    | _ => rfl
  constructor
  · exact same.key
  · intro hx
    constructor
    · intro _
      exact closing
    · intro _
      rw [same.begun, hx.begun (open_not_finished isOpen)]
      exact ⟨fun _ => begun, fun _ => isOpen.1⟩
    · rw [same.endings, hx.ended, isOpen.2, unended]
      simp
    · rw [same.ready, same.session]
      exact hx.resolved
    · rw [same.creation, same.session]
      exact hx.created
    · exact fun _ => created
    · intro _
      rw [same.session]
      exact hx.opened isOpen
    · exact shut
    · rw [same.kind, received]
      exact hx.single
    · exact unary hx
  · constructor
    · intro finished
      exact absurd finished live
    · intro finished
      exact absurd finished (open_not_finished isOpen)
  · intro _
    exact closing
  · exact same.endings
  · intro c held
    exact holds c held.1
  · intro c member
    exact .inl (members c member)
  · intro creating
    rw [created] at creating
    cases creating

theorem follows_finish (isOpen : x.phase.Open) : Follows x x.finish :=
  follows_past isOpen ⟨rfl, rfl, rfl, rfl, rfl, rfl, rfl⟩ rfl rfl rfl (fun _ mem => ⟨mem, mem⟩)
    (fun _ member => member.elim id id) nofun rfl nofun

theorem follows_fail (isOpen : x.phase.Open) : Follows x x.fail :=
  follows_past isOpen ⟨rfl, rfl, rfl, rfl, rfl, rfl, rfl⟩ rfl rfl rfl (fun _ mem => ⟨mem, mem⟩)
    (fun _ member => member.elim id id) nofun rfl nofun

theorem follows_close (isOpen : x.phase.Open) (responses : Bool) : Follows x (x.close responses) :=
  follows_past isOpen ⟨rfl, rfl, rfl, rfl, rfl, rfl, rfl⟩ rfl rfl rfl (fun _ mem => ⟨mem, trivial⟩)
    (fun _ member => member.elim id (absurd · (Finset.notMem_empty _))) (fun _ _ => rfl) rfl nofun

/-- Only fields have changed that do not say where the session stands. -/
theorem coherent_aside (hx : x.Coherent) (same : SameRequest x y) (phase : y.phase = x.phase)
    (closing : y.closing = x.closing) (active : y.active = x.active)
    (single : y.kind = .clientStreaming → y.received ≠ .handling) : y.Coherent := by
  constructor
  · rw [phase, closing]
    exact hx.closed
  · rw [phase, same.begun]
    exact hx.begun
  · rw [same.endings, phase, same.begun]
    exact hx.ended
  · rw [same.ready, same.session]
    exact hx.resolved
  · rw [same.creation, same.session]
    exact hx.created
  · rw [phase, same.session]
    exact hx.session
  · rw [phase, same.session]
    exact hx.opened
  · rw [phase, active]
    exact hx.shut
  · exact single
  · rw [phase, same.kind]
    exact hx.unary

theorem follows_aside (same : SameRequest x y) (phase : y.phase = x.phase) (closing : y.closing = x.closing)
    (consumers : y.consumers = x.consumers) (active : y.active = x.active)
    (single : x.Coherent → y.kind = .clientStreaming → y.received ≠ .handling) : Follows x y := by
  constructor
  · exact same.key
  · intro hx
    exact coherent_aside hx same phase closing active (single hx)
  · rw [phase]
  · rw [closing]
    exact fun closed => closed
  · exact same.endings
  · intro c held
    rw [Holds, phase, consumers]
    exact held
  · intro c member
    rw [Member, phase, consumers] at member
    exact member
  · rw [phase]
    exact id

theorem follows_received {received : Received} (single : x.kind = .clientStreaming → received ≠ .handling) :
    Follows x { x with received := received } :=
  follows_aside (y := { x with received := received }) ⟨rfl, rfl, rfl, rfl, rfl, rfl, rfl⟩ rfl rfl rfl rfl fun _ => single

theorem follows_receive (hx : x.Coherent) (next : x.receive = some y) : Follows x y := by
  unfold receive at next
  split at next
  case h_1 _ _ kind phase _ | h_2 _ _ kind phase _ =>
    cases next
    have isOpen : x.phase.Open := by
      rw [phase]
      exact ⟨nofun, rfl⟩
    exact follows_past isOpen ⟨rfl, rfl, rfl, rfl, rfl, rfl, rfl⟩ (hx.closed (by rw [phase]; rfl)) rfl rfl
      (fun _ mem => ⟨mem, trivial⟩) (fun _ member => member.elim id id) nofun rfl (fun _ _ => kind)
  case h_3 _ _ _ phase _ =>
    cases next
    apply follows_close
    rw [phase]
    exact ⟨nofun, rfl⟩
  case h_4 _ _ _ phase _ =>
    cases next
    apply follows_fail
    rw [phase]
    exact ⟨nofun, rfl⟩
  case h_5 _ _ _ phase _ =>
    cases next
    apply follows_finish
    rw [phase]
    exact ⟨nofun, rfl⟩
  case h_6 _ _ _ phase _ =>
    cases next
    apply follows_fail
    rw [phase]
    exact ⟨nofun, rfl⟩
  case h_7 => cases next

theorem follows_handled {ok : Bool} (next : x.handled ok = some y) : Follows x y := by
  unfold handled at next
  split at next
  case h_1 _ _ _ phase =>
    cases next
    have isOpen : x.phase.Open := by
      rw [phase]
      exact ⟨nofun, rfl⟩
    split
    · exact follows_finish isOpen
    · exact follows_fail isOpen
  case h_2 _ _ _ kind _ =>
    cases next
    apply follows_received
    intro client
    rw [kind] at client
    cases client
  case h_3 => cases next

theorem follows_closed {ok : Bool} (hx : x.Coherent) (next : x.closed ok = some y) : Follows x y := by
  unfold closed at next
  split at next
  · rename_i responses phase
    have isOpen : x.phase.Open := by
      rw [phase]
      exact ⟨nofun, rfl⟩
    split at next
    · cases next
      split
      · split
        · exact follows_finish isOpen
        · exact follows_past isOpen ⟨rfl, rfl, rfl, rfl, rfl, rfl, rfl⟩ (hx.closed (by rw [phase]; rfl)) rfl rfl
            (fun _ mem => ⟨mem, trivial⟩) (fun _ member => member.elim id (absurd · (Finset.notMem_empty _)))
            nofun rfl nofun
      · exact follows_fail isOpen
    · cases next
  · cases next

theorem follows_begin (phase : x.phase = .beginning) : Follows x (x.begin true) := by
  constructor
  · rfl
  · intro hx
    exact coherent_begin hx phase true
  · simp [begin, phase]
  · exact fun closing => closing
  · rfl
  · intro c held
    rw [Holds, phase] at held
    exact held.2.elim
  · intro c member
    exact .inl (member.elim id (absurd · (Finset.notMem_empty _)))
  · nofun

theorem follows_settleReady {session : Bool} (creation : x.creation = .returned session) :
    Follows x (x.settleReady session) := by
  constructor
  · rfl
  · intro hx
    constructor
    · intro past
      cases session with
      | true => exact hx.closed past
      | false => rfl
    · exact hx.begun
    · exact hx.ended
    · intro resolved
      cases session with
      | true => exact hx.created creation
      | false =>
        apply hx.resolved
        by_cases pending : x.ready = .pending
        · simp [settleReady, pending] at resolved
        · simpa [settleReady, pending] using resolved
    · nofun
    · exact hx.session
    · exact hx.opened
    · exact hx.shut
    · exact hx.single
    · exact hx.unary
  · exact Iff.rfl
  · intro closing
    cases session with
    | true => exact closing
    | false => rfl
  · rfl
  · exact fun _ held => held
  · exact fun _ member => member
  · exact id

end Moves

end Slot

end GrpcSessions
