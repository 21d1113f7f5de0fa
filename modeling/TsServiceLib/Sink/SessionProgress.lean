import Mathlib.Data.Prod.Lex
import Mathlib.Data.Finset.Max
import TsServiceLib.Library.Fairness
import TsServiceLib.Sink.SessionOwnership

/-!
A session that finishes comes to its `endRequest`. Each phase has one thing that it
waits for, and a run that is fair to the handler and to the transport brings it:
the phases come in one order, and within one there are only so many consumers and
messages left. The other end has to stop sending responses at some time.
-/
namespace GrpcSessions
open Transitions Function

/-- What a session waits for: its own next step, a message that is written, the
    response or the end of the responses, a `handleResponse`, a `consumeMessage`. -/
inductive Duty where
  | finish (slot : Nat)
  | written (slot : Nat)
  | answers (slot : Nat)
  | handles (slot : Nat)
  | settles (call : Nat)

def Performs : Duty → Action → Prop
  | .finish i, .wakes j => j = i
  | .finish i, .aborts j => j = i
  | .finish i, .receives j => j = i
  | .finish i, .closes j _ => j = i
  | .finish i, .drains j => j = i
  | .finish i, .ends j => j = i
  | .written i, .written j => j = i
  | .answers i, .answers j _ => j = i
  | .handles i, .handles j _ => j = i
  | .settles c, .consumeSettles d _ => d = c
  | _, _ => False

/-- The slot that a step of a session, of its handler or of its transport is about. -/
def Action.slot : Action → Option Nat
  | .begins i _ => some i
  | .beginFails i => some i
  | .abandoned i => some i
  | .created i => some i
  | .wakes i => some i
  | .aborts i => some i
  | .receives i => some i
  | .closes i _ => some i
  | .handles i _ => some i
  | .drains i => some i
  | .ends i => some i
  | .ended i => some i
  | .done i => some i
  | .cancels i => some i
  | .sends i => some i
  | .written i => some i
  | .answers i _ => some i
  | .responds i => some i
  | _ => none

def Phase.stage : Phase → Nat
  | .waiting => 6
  | .closing _ => 5
  | .receiving => 4
  | .draining _ => 3
  | .handling => 2
  | .settling _ => 1
  | _ => 0

/-- The steps that the receiver takes when no more responses come. -/
def Received.left : Received → Nat
  | .nothing => 1
  | .handling => 2
  | _ => 0

namespace Slot

/-- What is left within the phase, where `u` are the consumers it still waits for. -/
def left (x : Slot) (u : Finset Nat) : Nat :=
  match x.phase with
  | .closing _ => x.writes
  | .receiving => x.received.left
  | .draining _ => u.card
  | .settling _ => u.card + x.received.left
  | _ => 0

def receiverDuty (i : Nat) (x : Slot) : Duty :=
  match x.received with
  | .nothing => .answers i
  | .handling => .handles i
  | _ => .finish i

def consumerDuty (u : Finset Nat) (otherwise : Duty) : Duty := if some : u.Nonempty then .settles (u.min' some) else otherwise

def duty (i : Nat) (x : Slot) (u : Finset Nat) : Duty :=
  match x.phase with
  | .closing _ => if x.writes = 0 then .finish i else .written i
  | .receiving => x.receiverDuty i
  | .draining _ => consumerDuty u (.finish i)
  | .handling => .handles i
  | .settling _ => consumerDuty u (if x.received? = true then .finish i else x.receiverDuty i)
  | _ => .finish i

/-- `finishSession` goes on as soon as it can. -/
def Awake (x : Slot) : Prop :=
  x.phase = .waiting → x.done = true ∨ x.cancelled = true ∨
    x.kind = .bidiStreaming ∧ (x.received = .value ∨ x.received = .error)

end Slot

/-- The consumers that the phase waits for and that have not settled. -/
def State.unsettled (s : State) (i : Nat) : Finset Nat :=
  (s.slots i).phase.snapshot.filter fun c => (s.calls c).phase = .consuming

def State.rank (s : State) (i : Nat) : Nat ×ₗ Nat := toLex ((s.slots i).phase.stage, (s.slots i).left (s.unsettled i))

def State.duty (s : State) (i : Nat) : Duty := (s.slots i).duty i (s.unsettled i)

/-- The request has begun, and nothing but the session's own way is before its end. -/
structure Winding (i : Nat) (s : State) : Prop where
  sessions : Sessions s
  known : i < s.nextSlot
  begun : (s.slots i).begun = true
  awake : (s.slots i).Awake

def Ended (i : Nat) (s : State) : Prop := (s.slots i).endings = 1

section Progress
variable {s t : State} {a : Action} {i : Nat}

/-- A session that winds up without having ended its request is open. -/
theorem open_of_winding (h : Winding i s) (unended : ¬Ended i s) : (s.slots i).phase.Open := by
  have coherent := h.sessions.coherent i
  have ended : (s.slots i).phase.ended = false := by
    cases ended : (s.slots i).phase.ended with
    | false => rfl
    | true =>
      have endings := coherent.ended
      rw [ended, h.begun] at endings
      exact absurd endings unended
  constructor
  · intro beginning
    have live : (s.slots i).phase ≠ .finished := by
      rw [beginning]
      nofun
    exact (coherent.begun live).mp h.begun beginning
  · exact ended

theorem mem_unsettled {c : Nat} : c ∈ s.unsettled i ↔ c ∈ (s.slots i).phase.snapshot ∧ (s.calls c).phase = .consuming := by
  simp [State.unsettled]

/-- One step of the system, seen from the session: it comes to the end of its
    request, or nearer to it, or it still waits for the same. -/
structure Advance (i : Nat) (s : State) (a : Action) (t : State) : Prop where
  begun : (t.slots i).begun = true
  awake : (t.slots i).Awake
  nearer : Ended i t ∨ t.rank i < s.rank i ∨
    (t.rank i = s.rank i ∧ t.duty i = s.duty i ∧ ¬Performs (s.duty i) a)

/-- What the rank and the duty read of a slot. -/
structure Slot.Alike (x y : Slot) : Prop where
  phase : y.phase = x.phase
  kind : y.kind = x.kind
  received : y.received = x.received
  writes : ∀ responses, x.phase = .closing responses → y.writes = x.writes

theorem left_alike {x y : Slot} (alike : x.Alike y) (u : Finset Nat) : y.left u = x.left u := by
  unfold Slot.left
  rw [alike.phase, alike.received]
  split
  · rename_i responses phase
    exact alike.writes responses phase
  all_goals rfl

theorem duty_alike {x y : Slot} (alike : x.Alike y) (u : Finset Nat) : y.duty i u = x.duty i u := by
  have receiver : y.receiverDuty i = x.receiverDuty i := by
    unfold Slot.receiverDuty
    rw [alike.received]
  have received : y.received? = x.received? := by
    unfold Slot.received?
    rw [alike.kind, alike.received]
  unfold Slot.duty
  rw [alike.phase, receiver, received]
  split
  · rename_i responses phase
    rw [alike.writes responses phase]
  all_goals rfl

theorem left_lower {x : Slot} {u v : Finset Nat} (fewer : v ⊂ u) (within : u ⊆ x.phase.snapshot) : x.left v < x.left u := by
  have less : v.card < u.card := Finset.card_lt_card fewer
  unfold Slot.left
  cases phase : x.phase with
  | draining snapshot => exact less
  | settling snapshot => exact Nat.add_lt_add_right less _
  | _ =>
    rw [phase] at within
    have empty : u = ∅ := Finset.subset_empty.mp within
    rw [empty] at less
    exact absurd less (Nat.not_lt_zero _)

theorem advance_alike (h : Winding i s) (alike : (s.slots i).Alike (t.slots i))
    (begun : (t.slots i).begun = (s.slots i).begun) (done : (s.slots i).done = true → (t.slots i).done = true)
    (cancelled : (s.slots i).cancelled = true → (t.slots i).cancelled = true)
    (calls : ∀ c, c ∈ (s.slots i).phase.snapshot → (t.calls c).phase = .consuming → (s.calls c).phase = .consuming)
    (idle : t.unsettled i = s.unsettled i → ¬Performs (s.duty i) a) : Advance i s a t := by
  have fewer : t.unsettled i ⊆ s.unsettled i := by
    intro c mem
    rw [mem_unsettled, alike.phase] at mem
    exact mem_unsettled.mpr ⟨mem.1, calls c mem.1 mem.2⟩
  constructor
  · rw [begun]
    exact h.begun
  · intro waiting
    rw [alike.phase] at waiting
    rw [alike.kind, alike.received]
    exact (h.awake waiting).imp done (Or.imp_left cancelled)
  · by_cases same : t.unsettled i = s.unsettled i
    · refine .inr (.inr ⟨?_, ?_, idle same⟩)
      · rw [State.rank, State.rank, alike.phase, left_alike alike, same]
      · rw [State.duty, State.duty, duty_alike alike, same]
    · refine .inr (.inl ?_)
      rw [State.rank, State.rank, alike.phase, left_alike alike]
      apply Prod.Lex.toLex_lt_toLex.mpr
      exact .inr ⟨rfl, left_lower (lt_of_le_of_ne fewer same) (Finset.filter_subset _ _)⟩

theorem advance_stage (h : Winding i s) (stage : (t.slots i).phase.stage < (s.slots i).phase.stage)
    (begun : (t.slots i).begun = (s.slots i).begun) : Advance i s a t := by
  constructor
  · rw [begun]
    exact h.begun
  · intro waiting
    rw [waiting] at stage
    have top : (s.slots i).phase.stage ≤ 6 := by
      cases (s.slots i).phase <;> simp [Phase.stage]
    exact absurd stage (Nat.not_lt.mpr top)
  · exact .inr (.inl (Prod.Lex.toLex_lt_toLex.mpr (.inl stage)))

theorem consumerDuty_cases (u : Finset Nat) (otherwise : Duty) :
    (u = ∅ ∧ Slot.consumerDuty u otherwise = otherwise) ∨ ∃ c, c ∈ u ∧ Slot.consumerDuty u otherwise = .settles c := by
  unfold Slot.consumerDuty
  split
  · rename_i some
    exact .inr ⟨u.min' some, u.min'_mem some, rfl⟩
  · rename_i none
    exact .inl ⟨Finset.not_nonempty_iff_eq_empty.mp none, rfl⟩

theorem receiverDuty_cases (i : Nat) (x : Slot) :
    (x.received = .nothing ∧ x.receiverDuty i = .answers i) ∨ (x.received = .handling ∧ x.receiverDuty i = .handles i) ∨
    (x.received = .value ∨ x.received = .error) ∧ x.receiverDuty i = .finish i := by
  unfold Slot.receiverDuty
  cases x.received with
  | nothing => exact .inl ⟨rfl, rfl⟩
  | handling => exact .inr (.inl ⟨rfl, rfl⟩)
  | value => exact .inr (.inr ⟨.inl rfl, rfl⟩)
  | error => exact .inr (.inr ⟨.inr rfl, rfl⟩)

/-- Where a session waits for something else than its own next step. -/
theorem duty_cases (i : Nat) (x : Slot) (u : Finset Nat) :
    x.duty i u = .finish i ∨
    (x.duty i u = .written i ∧ x.writes ≠ 0 ∧ ∃ responses, x.phase = .closing responses) ∨
    (x.duty i u = .answers i ∧ x.received = .nothing ∧ (x.phase.stage = 4 ∨ x.phase.stage = 1)) ∨
    (x.duty i u = .handles i ∧ (x.phase = .handling ∨ x.received = .handling ∧ (x.phase.stage = 4 ∨ x.phase.stage = 1))) ∨
    ∃ c, c ∈ u ∧ x.duty i u = .settles c := by
  unfold Slot.duty
  cases phase : x.phase with
  | closing responses =>
    simp only
    split
    · exact .inl rfl
    · rename_i some
      exact .inr (.inl ⟨rfl, some, responses, rfl⟩)
  | receiving =>
    rcases receiverDuty_cases i x with ⟨nothing, duty⟩ | ⟨handling, duty⟩ | ⟨-, duty⟩
    · exact .inr (.inr (.inl ⟨duty, nothing, .inl rfl⟩))
    · exact .inr (.inr (.inr (.inl ⟨duty, .inr ⟨handling, .inl rfl⟩⟩)))
    · exact .inl duty
  | draining snapshot =>
    rcases consumerDuty_cases u (.finish i) with ⟨-, duty⟩ | settles
    · exact .inl duty
    · exact .inr (.inr (.inr (.inr settles)))
  | handling => exact .inr (.inr (.inr (.inl ⟨rfl, .inl rfl⟩)))
  | settling snapshot =>
    rcases consumerDuty_cases u (if x.received? = true then .finish i else x.receiverDuty i) with ⟨-, duty⟩ | settles
    · simp only [duty]
      split
      · exact .inl rfl
      · rcases receiverDuty_cases i x with ⟨nothing, duty⟩ | ⟨handling, duty⟩ | ⟨-, duty⟩
        · exact .inr (.inr (.inl ⟨duty, nothing, .inr rfl⟩))
        · exact .inr (.inr (.inr (.inl ⟨duty, .inr ⟨handling, .inr rfl⟩⟩)))
        · exact .inl duty
    · exact .inr (.inr (.inr (.inr settles)))
  | _ => exact .inl rfl

/-- A duty is done by a step about its session, or by the consumer that it names. -/
theorem slot_of_performs {d : Duty} (performs : Performs d a) :
    (∃ j, a.slot = some j ∧ (d = .finish j ∨ d = .written j ∨ d = .answers j ∨ d = .handles j)) ∨
    ∃ c consumed, a = .consumeSettles c consumed ∧ d = .settles c := by
  unfold Performs at performs
  split at performs
  case h_7 j _ =>
    subst performs
    exact .inl ⟨_, rfl, .inr (.inl rfl)⟩
  case h_8 =>
    subst performs
    exact .inl ⟨_, rfl, .inr (.inr (.inl rfl))⟩
  case h_9 =>
    subst performs
    exact .inl ⟨_, rfl, .inr (.inr (.inr rfl))⟩
  case h_10 =>
    subst performs
    exact .inr ⟨_, _, rfl, rfl⟩
  case h_11 => exact performs.elim
  all_goals
    subst performs
    exact .inl ⟨_, rfl, .inl rfl⟩

theorem performs_slot (performs : Performs (s.duty i) a) :
    a.slot = some i ∨ ∃ c consumed, a = .consumeSettles c consumed ∧ c ∈ s.unsettled i := by
  have own : (∃ c, c ∈ s.unsettled i ∧ s.duty i = .settles c) ∨
      s.duty i = .finish i ∨ s.duty i = .written i ∨ s.duty i = .answers i ∨ s.duty i = .handles i := by
    rcases duty_cases i (s.slots i) (s.unsettled i) with finish | ⟨written, -⟩ | ⟨answers, -⟩ | ⟨handles, -⟩ | settles
    · exact .inr (.inl finish)
    · exact .inr (.inr (.inl written))
    · exact .inr (.inr (.inr (.inl answers)))
    · exact .inr (.inr (.inr (.inr handles)))
    · exact .inl settles
  rcases slot_of_performs performs with ⟨j, slot, duty⟩ | ⟨c, consumed, settles, duty⟩
  · rw [slot]
    rcases own with ⟨c, -, same⟩ | same | same | same | same
    all_goals
      rw [same] at duty
      rcases duty with duty | duty | duty | duty <;> cases duty
    all_goals exact .inl rfl
  · rcases own with ⟨d, mem, same⟩ | same | same | same | same
    · rw [same] at duty
      cases duty
      exact .inr ⟨c, consumed, settles, mem⟩
    all_goals
      rw [same] at duty
      cases duty

/-- A step about one session leaves the calls and the other sessions alone. -/
theorem step_slot {kinds : Nat → Kind} {j : Nat} (slot : a.slot = some j) (next : step kinds s a = some t) :
    t.calls = s.calls ∧ ∀ i, i ≠ j → t.slots i = s.slots i := by
  have apart : ∀ (x : Slot) (i : Nat), i ≠ j → (s.setSlot j x).slots i = s.slots i := by
    intro x i other
    exact update_of_ne other ..
  cases a with
  | begins j' opens =>
    cases slot
    simp only [step, State.begins] at next
    split at next
    · cases next
      split
      · exact ⟨rfl, apart _⟩
      · exact ⟨rfl, apart _⟩
    · cases next
  | beginFails j' | abandoned j' | created j' | wakes j' | aborts j' | ended j' | done j'
  | cancels j' | sends j' | written j' | answers j' _ | responds j' =>
    cases slot
    simp only [step, State.beginFails, State.abandoned, State.created, State.wakes, State.aborts, State.ended, State.done,
      State.cancels, State.sends, State.written, State.answers, State.responds] at next
    split at next
    · cases next
      exact ⟨rfl, apart _⟩
    · cases next
  | receives j' | closes j' _ | handles j' _ =>
    cases slot
    obtain ⟨x, -, rfl⟩ := Option.map_eq_some_iff.mp next
    exact ⟨rfl, apart _⟩
  | drains j' | ends j' =>
    cases slot
    simp only [step, State.drains, State.ends] at next
    split at next
    · split at next
      · cases next
        exact ⟨rfl, apart _⟩
      · cases next
    · cases next
  | _ => cases slot

theorem advance_apart (h : Winding i s) (slot : t.slots i = s.slots i)
    (calls : ∀ c, c ∈ (s.slots i).phase.snapshot → (t.calls c).phase = .consuming → (s.calls c).phase = .consuming)
    (idle : t.unsettled i = s.unsettled i → ¬Performs (s.duty i) a) : Advance i s a t := by
  have alike : (s.slots i).Alike (t.slots i) := by
    rw [slot]
    exact ⟨rfl, rfl, rfl, fun _ _ => rfl⟩
  apply advance_alike h alike
  · rw [slot]
  · rw [slot]
    exact id
  · rw [slot]
    exact id
  · exact calls
  · exact idle

/-- A step that is about no session and no consumer has no part in a duty. -/
theorem idle_of_noslot (slot : a.slot = none) (settles : ∀ c consumed, a ≠ .consumeSettles c consumed) :
    ¬Performs (s.duty i) a := by
  intro performs
  rcases performs_slot performs with own | ⟨c, consumed, same, -⟩
  · rw [slot] at own
    cases own
  · exact settles c consumed same

/-- Fields have changed that say nothing of the way to the end. -/
theorem advance_aside (h : Winding i s) {x : Slot} (alike : (s.slots i).Alike x) (begun : x.begun = (s.slots i).begun)
    (done : (s.slots i).done = true → x.done = true) (cancelled : (s.slots i).cancelled = true → x.cancelled = true)
    (idle : ¬Performs (s.duty i) a) : Advance i s a (s.setSlot i x) := by
  have slot : (s.setSlot i x).slots i = x := update_self ..
  apply advance_alike h
  · rw [slot]
    exact alike
  · rw [slot]
    exact begun
  · rw [slot]
    exact done
  · rw [slot]
    exact cancelled
  · exact fun _ _ consuming => consuming
  · exact fun _ => idle

theorem advance_later (h : Winding i s) {x : Slot} (stage : x.phase.stage < (s.slots i).phase.stage)
    (begun : x.begun = (s.slots i).begun) : Advance i s a (s.setSlot i x) := by
  have slot : (s.setSlot i x).slots i = x := update_self ..
  apply advance_stage h
  · rw [slot]
    exact stage
  · rw [slot]
    exact begun

/-- The transport or a `handleResponse` brings the receiver nearer to its end. -/
theorem advance_received (h : Winding i s) {received : Received} (fewer : received.left < (s.slots i).received.left)
    (idle : (s.slots i).phase.stage ≠ 4 → (s.slots i).phase.stage ≠ 1 → ¬Performs (s.duty i) a) :
    Advance i s a (s.setSlot i { s.slots i with received := received }) := by
  have slot : (s.setSlot i { s.slots i with received := received }).slots i = { s.slots i with received := received } :=
    update_self ..
  have unsettled : (s.setSlot i { s.slots i with received := received }).unsettled i = s.unsettled i := by
    simp [State.unsettled, State.setSlot]
  have early : ¬((s.slots i).received = .value ∨ (s.slots i).received = .error) := by
    rintro (value | error)
    · rw [value] at fewer
      exact absurd fewer (Nat.not_lt_zero _)
    · rw [error] at fewer
      exact absurd fewer (Nat.not_lt_zero _)
  constructor
  · rw [slot]
    exact h.begun
  · rw [slot]
    intro waiting
    rcases h.awake waiting with done | cancelled | ⟨-, settled⟩
    · exact .inl done
    · exact .inr (.inl cancelled)
    · exact absurd settled early
  · by_cases counted : (s.slots i).phase.stage = 4 ∨ (s.slots i).phase.stage = 1
    · refine .inr (.inl ?_)
      rw [State.rank, State.rank, unsettled, slot]
      apply Prod.Lex.toLex_lt_toLex.mpr
      refine .inr ⟨rfl, ?_⟩
      cases phase : (s.slots i).phase with
      | receiving => simpa [Slot.left, phase] using fewer
      | settling snapshot => simpa [Slot.left, phase] using fewer
      | _ =>
        rw [phase] at counted
        rcases counted with stage | stage <;> cases stage
    · obtain ⟨receiving, settling⟩ := not_or.mp counted
      refine .inr (.inr ⟨?_, ?_, idle receiving settling⟩)
      · rw [State.rank, State.rank, unsettled, slot]
        cases phase : (s.slots i).phase with
        | receiving =>
          rw [phase] at receiving
          exact absurd rfl receiving
        | settling snapshot =>
          rw [phase] at settling
          exact absurd rfl settling
        | _ => simp [Slot.left, phase]
      · rw [State.duty, State.duty, unsettled, slot]
        cases phase : (s.slots i).phase with
        | receiving =>
          rw [phase] at receiving
          exact absurd rfl receiving
        | settling snapshot =>
          rw [phase] at settling
          exact absurd rfl settling
        | _ => simp [Slot.duty, phase]

/-- What a call does to its slot says nothing of the way to the end. -/
structure Slot.Beside (x y : Slot) : Prop where
  alike : x.Alike y
  begun : y.begun = x.begun
  done : x.done = true → y.done = true
  cancelled : x.cancelled = true → y.cancelled = true

theorem beside_refl (x : Slot) : x.Beside x := ⟨⟨rfl, rfl, rfl, fun _ _ => rfl⟩, rfl, id, id⟩

/-- A call goes on that the session does not wait for, or no longer. -/
theorem advance_call (h : Winding i s) (slot : (s.slots i).Beside (t.slots i))
    (calls : ∀ c, c ∈ (s.slots i).phase.snapshot → (t.calls c).phase = .consuming → (s.calls c).phase = .consuming)
    (slotless : a.slot = none) (settles : ∀ c consumed, a ≠ .consumeSettles c consumed) : Advance i s a t :=
  advance_alike h slot.alike slot.begun slot.done slot.cancelled calls (fun _ => idle_of_noslot slotless settles)

theorem setCall_consuming {c d : Nat} {phase : CallPhase} (idle : phase ≠ .consuming)
    (consuming : ((s.setCall c phase).calls d).phase = .consuming) : (s.calls d).phase = .consuming := by
  by_cases same : d = c
  · subst same
    exact absurd (by simpa [State.setCall] using consuming) idle
  · simpa [State.setCall, update_of_ne same] using consuming

theorem join_consuming {c j : Nat} (consuming : ((s.join j).calls c).phase = .consuming) : (s.calls c).phase = .consuming := by
  by_cases same : c = s.nextCall
  · subst same
    simp only [State.join, update_self] at consuming
    split at consuming
    · cases consuming
    · cases consuming
  · simpa [State.join, update_of_ne same] using consuming

theorem advance_consume (h : Winding i s) (kinds : Nat → Kind) (k : Key) (throws : Bool) :
    Advance i s (.consume k throws) (s.consume kinds k throws) := by
  have older : i ≠ s.nextSlot := by
    have known := h.known
    omega
  apply advance_call h
  · have slot : (s.consume kinds k throws).slots i = s.slots i := by
      unfold State.consume
      split
      · rfl
      · simp only
        split
        · simp [State.join, State.dismiss, State.delete, State.setSlot, State.openSlot, update_of_ne older]
        · simp [State.join, State.openSlot, update_of_ne older]
    rw [slot]
    exact beside_refl _
  · intro c _ consuming
    unfold State.consume at consuming
    split at consuming
    · exact join_consuming consuming
    · simp only at consuming
      split at consuming
      · exact join_consuming (s := (s.openSlot (kinds k.consumer) k).dismiss s.nextSlot) consuming
      · exact join_consuming (s := s.openSlot (kinds k.consumer) k) consuming
  · rfl
  · simp

theorem advance_resume (h : Winding i s) {c : Nat} (next : s.resume c = some t) : Advance i s (.resume c) t := by
  unfold State.resume at next
  split at next
  · rename_i waits
    simp only at next
    split at next
    · cases next
    · cases next
      exact advance_call h (beside_refl _) (fun _ _ => setCall_consuming nofun) rfl nofun
    · split at next
      · cases next
        exact advance_call h (beside_refl _) (fun _ _ => setCall_consuming nofun) rfl nofun
      · cases next
        apply advance_call h
        · apply slots_update (P := fun j y => (s.slots j).Beside y)
          · exact ⟨⟨rfl, rfl, rfl, fun _ _ => rfl⟩, rfl, id, id⟩
          · exact fun j _ => beside_refl _
        · intro d mem consuming
          have other : d ≠ c := by
            intro same
            subst same
            exact (h.sessions.members (.inr mem)).2 waits
          simpa [State.setCall, State.setSlot, update_of_ne other] using consuming
        · rfl
        · nofun
  · cases next

theorem advance_consumeReturns (h : Winding i s) {c : Nat} (next : s.consumeReturns c = some t) :
    Advance i s (.consumeReturns c) t := by
  unfold State.consumeReturns at next
  split at next
  · rename_i consumed phase
    cases next
    apply advance_call h
    · apply slots_update (P := fun j y => (s.slots j).Beside y)
      · refine ⟨⟨rfl, rfl, rfl, fun _ _ => rfl⟩, rfl, ?_, id⟩
        intro done
        simp [done]
      · exact fun j _ => beside_refl _
    · intro d _ consuming
      by_cases same : d = c
      · subst same
        simp [State.setCall] at consuming
      · simpa [State.setCall, State.setSlot, update_of_ne same] using consuming
    · rfl
    · simp
  · cases next

/-- A consumer settles. If the session waits for it, there is one less. -/
theorem advance_consumeSettles (h : Winding i s) {c : Nat} {consumed : Bool} (next : s.consumeSettles c consumed = some t) :
    Advance i s (.consumeSettles c consumed) t := by
  unfold State.consumeSettles at next
  split at next
  · cases next
    apply advance_apart h
    · rfl
    · exact fun _ _ => setCall_consuming nofun
    · intro same performs
      rcases performs_slot performs with own | ⟨d, _, settles, mem⟩
      · cases own
      · cases settles
        rw [← same] at mem
        have consuming := (mem_unsettled.mp mem).2
        simp [State.setCall] at consuming
  · cases next

theorem receive_stage {x y : Slot} (next : x.receive = some y) : y.phase.stage < x.phase.stage ∧ y.begun = x.begun := by
  unfold Slot.receive at next
  split at next
  case h_7 => cases next
  all_goals
    rename_i phase _
    cases next
    rw [phase]
    exact ⟨by simp [Slot.close, Slot.fail, Slot.finish, Phase.stage], rfl⟩

theorem closed_stage {x y : Slot} {ok : Bool} (next : x.closed ok = some y) :
    y.phase.stage < x.phase.stage ∧ y.begun = x.begun := by
  unfold Slot.closed at next
  split at next
  · rename_i responses phase
    split at next
    · cases next
      rw [phase]
      split
      · split
        · exact ⟨by simp [Slot.finish, Phase.stage], rfl⟩
        · exact ⟨by simp [Phase.stage], rfl⟩
      · exact ⟨by simp [Slot.fail, Slot.finish, Phase.stage], rfl⟩
    · cases next
  · cases next

theorem advance_handles (h : Winding i s) {ok : Bool} {x : Slot} (next : (s.slots i).handled ok = some x) :
    Advance i s (.handles i ok) (s.setSlot i x) := by
  unfold Slot.handled at next
  split at next
  case h_1 _ _ _ phase =>
    cases next
    apply advance_later h
    · rw [phase]
      split
      · simp [Slot.finish, Phase.stage]
      · simp [Slot.fail, Slot.finish, Phase.stage]
    · split
      · rfl
      · rfl
  case h_2 _ _ _ kind received =>
    cases next
    apply advance_received h
    · rw [received]
      cases ok with
      | true => decide
      | false => decide
    · intro receiving settling performs
      rcases duty_cases i (s.slots i) (s.unsettled i) with duty | ⟨duty, -⟩ | ⟨duty, -⟩ | ⟨duty, now | ⟨-, now | now⟩⟩ |
        ⟨c, -, duty⟩
      · rw [State.duty, duty] at performs
        exact performs
      · rw [State.duty, duty] at performs
        exact performs
      · rw [State.duty, duty] at performs
        exact performs
      · -- only a client stream handles its response there
        have client := (h.sessions.coherent i).unary (by rw [now]; rfl)
        rw [kind] at client
        cases client
      · exact receiving now
      · exact settling now
      · rw [State.duty, duty] at performs
        exact performs
  case h_3 => cases next

theorem advance_answers (h : Winding i s) {ok : Bool} (next : s.answers i ok = some t) : Advance i s (.answers i ok) t := by
  unfold State.answers at next
  split at next
  · rename_i may
    cases next
    apply advance_received h
    · rw [may.2]
      cases ok with
      | true => decide
      | false => decide
    · intro receiving settling performs
      rcases duty_cases i (s.slots i) (s.unsettled i) with duty | ⟨duty, -⟩ | ⟨-, -, now | now⟩ | ⟨duty, -⟩ | ⟨c, -, duty⟩
      · rw [State.duty, duty] at performs
        exact performs
      · rw [State.duty, duty] at performs
        exact performs
      · exact receiving now
      · exact settling now
      · rw [State.duty, duty] at performs
        exact performs
      · rw [State.duty, duty] at performs
        exact performs
  · cases next

theorem advance_written (h : Winding i s) (next : s.written i = some t) : Advance i s (.written i) t := by
  unfold State.written at next
  split at next
  · rename_i some
    cases next
    by_cases closing : ∃ responses, (s.slots i).phase = .closing responses
    · obtain ⟨responses, phase⟩ := closing
      have slot : (s.setSlot i { s.slots i with writes := (s.slots i).writes - 1 }).slots i =
          { s.slots i with writes := (s.slots i).writes - 1 } := update_self ..
      constructor
      · rw [slot]
        exact h.begun
      · rw [slot]
        exact h.awake
      · refine .inr (.inl ?_)
        rw [State.rank, State.rank, slot]
        apply Prod.Lex.toLex_lt_toLex.mpr
        refine .inr ⟨rfl, ?_⟩
        simp only [Slot.left, phase]
        omega
    · apply advance_aside h
      · refine ⟨rfl, rfl, rfl, ?_⟩
        intro responses phase
        exact absurd ⟨responses, phase⟩ closing
      · rfl
      · exact id
      · exact id
      · intro performs
        rcases duty_cases i (s.slots i) (s.unsettled i) with duty | ⟨-, -, now⟩ | ⟨duty, -⟩ | ⟨duty, -⟩ | ⟨c, -, duty⟩
        · rw [State.duty, duty] at performs
          exact performs
        · exact closing now
        all_goals
          rw [State.duty, duty] at performs
          exact performs
  · cases next

theorem performs_nothing (d : Duty) (j : Nat) :
    ¬Performs d (.created j) ∧ ¬Performs d (.done j) ∧ ¬Performs d (.cancels j) ∧ ¬Performs d (.sends j) := by
  cases d <;> exact ⟨id, id, id, id⟩

theorem advance_own {kinds : Nat → Kind} (h : Winding i s) (unended : ¬Ended i s) (slot : a.slot = some i)
    (quiet : a ≠ .responds i) (next : step kinds s a = some t) : Advance i s a t := by
  have isOpen := open_of_winding h unended
  have undone : ∀ {phase : Phase}, (s.slots i).phase = phase → phase.ended = false ∧ phase ≠ .beginning := by
    intro phase same
    rw [← same]
    exact isOpen.symm
  cases a with
  | begins j opens =>
    cases slot
    simp only [step, State.begins] at next
    split at next
    · rename_i phase
      exact absurd rfl (undone phase).2
    · cases next
  | beginFails j =>
    cases slot
    simp only [step, State.beginFails] at next
    split at next
    · rename_i phase
      exact absurd rfl (undone phase).2
    · cases next
  | abandoned j =>
    cases slot
    simp only [step, State.abandoned] at next
    split at next
    · rename_i phase
      cases (undone phase).1
    · cases next
  | created j =>
    cases slot
    simp only [step, State.created] at next
    split at next
    · cases next
      apply advance_aside h
      · exact ⟨rfl, rfl, rfl, fun _ _ => rfl⟩
      · rfl
      · exact id
      · exact id
      · exact (performs_nothing _ _).1
    · cases next
  | wakes j =>
    cases slot
    simp only [step, State.wakes] at next
    split at next
    · rename_i may
      cases next
      apply advance_later h
      · rw [may.1]
        simp [Slot.close, Phase.stage]
      · rfl
    · cases next
  | aborts j =>
    cases slot
    simp only [step, State.aborts] at next
    split at next
    · rename_i may
      cases next
      apply advance_later h
      · rw [may.1]
        simp [Slot.fail, Slot.finish, Phase.stage]
      · rfl
    · cases next
  | receives j =>
    cases slot
    obtain ⟨x, received, rfl⟩ := Option.map_eq_some_iff.mp next
    exact advance_later h (receive_stage received).1 (receive_stage received).2
  | closes j ok =>
    cases slot
    obtain ⟨x, closed, rfl⟩ := Option.map_eq_some_iff.mp next
    exact advance_later h (closed_stage closed).1 (closed_stage closed).2
  | handles j ok =>
    cases slot
    obtain ⟨x, handled, rfl⟩ := Option.map_eq_some_iff.mp next
    exact advance_handles h handled
  | drains j =>
    cases slot
    simp only [step, State.drains] at next
    split at next
    · rename_i snapshot phase
      split at next
      · cases next
        apply advance_later h
        · rw [phase]
          split
          · simp [Slot.fail, Slot.finish, Phase.stage]
          · simp [Phase.stage]
        · split
          · rfl
          · rfl
      · cases next
    · cases next
  | ends j =>
    cases slot
    simp only [step, State.ends] at next
    split at next
    · rename_i snapshot phase
      split at next
      · cases next
        have none : (s.slots i).endings = 0 := by
          rw [(h.sessions.coherent i).ended, isOpen.2]
          rfl
        constructor
        · simpa [State.setSlot] using h.begun
        · intro waiting
          simp [State.setSlot] at waiting
        · refine .inl ?_
          simp [Ended, State.setSlot, none]
      · cases next
    · cases next
  | ended j =>
    cases slot
    simp only [step, State.ended] at next
    split at next
    · rename_i phase
      cases (undone phase).1
    · cases next
  | done j =>
    cases slot
    simp only [step, State.done] at next
    split at next
    · cases next
      apply advance_aside h
      · exact ⟨rfl, rfl, rfl, fun _ _ => rfl⟩
      · rfl
      · exact fun _ => rfl
      · exact id
      · exact (performs_nothing _ _).2.1
    · cases next
  | cancels j =>
    cases slot
    simp only [step, State.cancels] at next
    split at next
    · cases next
      apply advance_aside h
      · exact ⟨rfl, rfl, rfl, fun _ _ => rfl⟩
      · rfl
      · exact id
      · exact fun _ => rfl
      · exact (performs_nothing _ _).2.2.1
    · cases next
  | sends j =>
    cases slot
    simp only [step, State.sends] at next
    split at next
    · rename_i active
      cases next
      apply advance_aside h
      · refine ⟨rfl, rfl, rfl, ?_⟩
        intro responses phase
        rw [(h.sessions.coherent i).shut responses phase] at active
        cases active
      · rfl
      · exact id
      · exact id
      · exact (performs_nothing _ _).2.2.2
    · cases next
  | written j =>
    cases slot
    exact advance_written h next
  | answers j ok =>
    cases slot
    exact advance_answers h next
  | responds j =>
    cases slot
    exact absurd rfl quiet
  | _ => cases slot

/-- A step brings a session that winds up nearer to its end, or leaves it waiting for
    the same. -/
theorem advance_step {kinds : Nat → Kind} (h : Winding i s) (unended : ¬Ended i s) (quiet : a ≠ .responds i)
    (next : step kinds s a = some t) : Advance i s a t := by
  cases slot : a.slot with
  | some j =>
    by_cases own : j = i
    · subst own
      exact advance_own h unended slot quiet next
    · obtain ⟨calls, others⟩ := step_slot slot next
      apply advance_apart h (others i (Ne.symm own))
      · intro c _ consuming
        rw [calls] at consuming
        exact consuming
      · intro _ performs
        rcases performs_slot performs with same | ⟨c, consumed, settles, -⟩
        · rw [slot] at same
          exact own (Option.some.inj same)
        · rw [settles] at slot
          cases slot
  | none =>
    have kept : ∀ {u : State}, u.slots = s.slots → u.calls = s.calls → (∀ c consumed, a ≠ .consumeSettles c consumed) →
        Advance i s a u := by
      intro u slots calls settles
      apply advance_call h
      · rw [slots]
        exact beside_refl _
      · intro c _ consuming
        rw [calls] at consuming
        exact consuming
      · exact slot
      · exact settles
    cases a with
    | consume k throws =>
      cases next
      exact advance_consume h kinds k throws
    | resume c => exact advance_resume h next
    | consumeSettles c consumed => exact advance_consumeSettles h next
    | consumeReturns c => exact advance_consumeReturns h next
    | forgets task =>
      simp only [step, State.forgets] at next
      split at next
      · cases next
        exact kept rfl rfl (by simp)
      · cases next
    | start =>
      cases next
      exact kept rfl rfl (by simp)
    | stop =>
      cases next
      unfold State.stop
      split
      · exact kept rfl rfl (by simp)
      · exact kept rfl rfl (by simp)
    | stopExpires id =>
      cases next
      exact kept rfl rfl (by simp)
    | stopCloses id =>
      simp only [step, State.stopCloses] at next
      split at next
      · split at next
        · cases next
          exact kept rfl rfl (by simp)
        · cases next
      · cases next
    | _ => cases slot

theorem winding_step {kinds : Nat → Kind} (h : Winding i s) (unended : ¬Ended i s) (quiet : a ≠ .responds i)
    (next : step kinds s a = some t) : Winding i t := by
  have kept := kept_step h.sessions next
  have advance := advance_step h unended quiet next
  constructor
  · exact kept.sessions
  · exact lt_of_lt_of_le h.known kept.slots
  · exact advance.begun
  · exact advance.awake

section Enabled
variable (kinds : Nat → Kind)

theorem settles_enabled {c : Nat} (mem : c ∈ s.unsettled i) : Enabled (step kinds) Performs s (.settles c) := by
  apply enabled_of_isSome (a := .consumeSettles c true)
  · rfl
  simp [step, State.consumeSettles, (mem_unsettled.mp mem).2]

theorem answers_enabled (session : (s.slots i).session = true) (nothing : (s.slots i).received = .nothing) :
    Enabled (step kinds) Performs s (.answers i) := by
  apply enabled_of_isSome (a := .answers i true)
  · rfl
  simp [step, State.answers, session, nothing]

theorem handles_enabled (coherent : (s.slots i).Coherent) (handling : (s.slots i).received = .handling) :
    Enabled (step kinds) Performs s (.handles i) := by
  apply enabled_of_isSome (a := .handles i true)
  · rfl
  cases kind : (s.slots i).kind with
  | clientStreaming => exact absurd handling (coherent.single kind)
  | bidiStreaming => simp [step, State.handles, Slot.handled, kind, handling]

theorem allSettled_of_none {snapshot : Finset Nat} (within : (s.slots i).phase.snapshot = snapshot)
    (none : s.unsettled i = ∅) : s.AllSettled snapshot := by
  intro c mem consuming
  rw [← within] at mem
  have member := mem_unsettled.mpr ⟨mem, consuming⟩
  rw [none] at member
  exact Finset.notMem_empty c member

theorem duty_enabled (h : Winding i s) (unended : ¬Ended i s) : Enabled (step kinds) Performs s (s.duty i) := by
  have isOpen := open_of_winding h unended
  have coherent := h.sessions.coherent i
  have session := coherent.opened isOpen
  unfold State.duty Slot.duty
  cases phase : (s.slots i).phase with
  | waiting =>
    rcases h.awake phase with done | cancelled | ⟨kind, value | error⟩
    · apply enabled_of_isSome (a := .wakes i)
      · rfl
      simp [step, State.wakes, phase, done]
    · apply enabled_of_isSome (a := .aborts i)
      · rfl
      simp [step, State.aborts, phase, cancelled]
    · apply enabled_of_isSome (a := .receives i)
      · rfl
      simp [step, State.receives, Slot.receive, kind, phase, value]
    · apply enabled_of_isSome (a := .receives i)
      · rfl
      simp [step, State.receives, Slot.receive, kind, phase, error]
  | closing responses =>
    simp only
    split
    · rename_i none
      apply enabled_of_isSome (a := .closes i true)
      · rfl
      simp [step, State.closes, Slot.closed, phase, none]
    · rename_i some
      apply enabled_of_isSome (a := .written i)
      · rfl
      simp [step, State.written, Nat.pos_of_ne_zero some]
  | receiving =>
    rcases receiverDuty_cases i (s.slots i) with ⟨nothing, duty⟩ | ⟨handling, duty⟩ | ⟨settled, duty⟩
    · simp only [duty]
      exact answers_enabled kinds session nothing
    · simp only [duty]
      exact handles_enabled kinds coherent handling
    · simp only [duty]
      apply enabled_of_isSome (a := .receives i)
      · rfl
      rcases settled with value | error
      · cases kind : (s.slots i).kind with
        | clientStreaming => simp [step, State.receives, Slot.receive, kind, phase, value]
        | bidiStreaming => simp [step, State.receives, Slot.receive, kind, phase, value]
      · cases kind : (s.slots i).kind with
        | clientStreaming => simp [step, State.receives, Slot.receive, kind, phase, error]
        | bidiStreaming => simp [step, State.receives, Slot.receive, kind, phase, error]
  | draining snapshot =>
    rcases consumerDuty_cases (s.unsettled i) (.finish i) with ⟨none, duty⟩ | ⟨c, mem, duty⟩
    · simp only [duty]
      have settled : s.AllSettled snapshot := allSettled_of_none (by rw [phase]; rfl) none
      apply enabled_of_isSome (a := .drains i)
      · rfl
      simp only [step, State.drains, phase]
      rw [if_pos settled]
      rfl
    · simp only [duty]
      exact settles_enabled kinds mem
  | handling =>
    have kind := coherent.unary (by rw [phase]; rfl)
    apply enabled_of_isSome (a := .handles i true)
    · rfl
    simp [step, State.handles, Slot.handled, kind, phase]
  | settling snapshot =>
    rcases consumerDuty_cases (s.unsettled i)
      (if (s.slots i).received? = true then .finish i else (s.slots i).receiverDuty i) with ⟨none, duty⟩ | ⟨c, mem, duty⟩
    · simp only [duty]
      split
      · rename_i received
        have settled : s.AllSettled snapshot := allSettled_of_none (by rw [phase]; rfl) none
        apply enabled_of_isSome (a := .ends i)
        · rfl
        simp only [step, State.ends, phase]
        rw [if_pos ⟨settled, received⟩]
        rfl
      · rename_i missing
        rcases receiverDuty_cases i (s.slots i) with ⟨nothing, duty⟩ | ⟨handling, duty⟩ | ⟨settled, -⟩
        · rw [duty]
          exact answers_enabled kinds session nothing
        · rw [duty]
          exact handles_enabled kinds coherent handling
        · -- both kinds of session have all they wait for
          refine absurd ?_ missing
          unfold Slot.received?
          rcases settled with value | error
          · cases kind : (s.slots i).kind <;> simp [value]
          · cases kind : (s.slots i).kind <;> simp [error]
    · simp only [duty]
      exact settles_enabled kinds mem
  | beginning => exact absurd phase isOpen.1
  | _ =>
    have ended := isOpen.2
    rw [phase] at ended
    cases ended

end Enabled

theorem request_ends {kinds : Nat → Kind} (run : Transitions.Run (step kinds) fun _ a => a ≠ .responds i)
    (fair : run.Fair Performs) (start : Winding i (run.state 0)) : ∃ n, Ended i (run.state n) := by
  apply fair_reaches (Winding i) (Ended i) (fun s => s.rank i) (fun s => s.duty i) _ _ _ _ run fair start
  · intro s a t h unended quiet next
    exact .inr (winding_step h unended quiet next)
  · intro s h unended
    exact duty_enabled kinds h unended
  · intro s a t h unended quiet next performs
    rcases (advance_step h unended quiet next).nearer with ended | lower | ⟨-, -, idle⟩
    · exact .inl ended
    · exact .inr lower
    · exact absurd performs idle
  · intro s a t h unended quiet next
    rcases (advance_step h unended quiet next).nearer with ended | lower | ⟨rank, duty, -⟩
    · exact .inl ended
    · exact .inr (.inl lower)
    · exact .inr (.inr ⟨rank, duty⟩)

end Progress

/- Both kinds of session, in every run. A stream id has at most one live session; no
   `consumeMessage` starts on a session whose closing has begun, and closing is for
   good; `endRequest` is called at most once, when nobody is in `consumeMessage` any
   more, it has been called once where a session that began is over, and a session
   that winds up comes to it; a slot is taken away by its own session alone. -/
theorem sessions_sound {kinds : Nat → Kind} {s : State} (reach : ReachableWith kinds Any s) :
    (∀ i j, (s.slots i).phase ≠ .finished → (s.slots j).phase ≠ .finished → (s.slots i).key = (s.slots j).key → i = j) ∧
    (∀ a t c, step kinds s a = some t → (s.calls c).phase ≠ .consuming → (t.calls c).phase = .consuming →
      (s.slots (t.calls c).slot).Admits) ∧
    (∀ a t i, step kinds s a = some t → i < s.nextSlot → (s.slots i).closing = true → (t.slots i).closing = true) ∧
    (∀ i, (s.slots i).endings ≤ 1 ∧
      ((s.slots i).phase = .finished → (s.slots i).endings = if (s.slots i).begun = true then 1 else 0)) ∧
    (∀ a t i, step kinds s a = some t → (s.slots i).endings < (t.slots i).endings →
      ∀ c, (s.calls c).slot = i → (s.calls c).phase ≠ .consuming) ∧
    (∀ i (run : Transitions.Run (step kinds) fun _ a => a ≠ .responds i), run.state 0 = s → run.Fair Performs →
      (s.slots i).begun = true → (s.slots i).Awake → ∃ n, Ended i (run.state n)) ∧
    ∀ a t k i, step kinds s a = some t → s.pending k = some i → t.pending k ≠ some i → a.removes = some i := by
  have hs := sessions_reachable reach
  refine ⟨?_, ?_, ?_, ?_, ?_, ?_, ?_⟩
  · intro i j alive living same
    have first := hs.live alive
    rw [same, hs.live living] at first
    exact (Option.some.inj first).symm
  · intro a t c next
    exact (kept_step hs next).started c
  · intro a t i next
    exact (kept_step hs next).closing i
  · intro i
    have ended := (hs.coherent i).ended
    constructor
    · rw [ended]
      split
      · exact le_rfl
      · exact Nat.zero_le 1
    · intro finished
      rw [ended, finished]
      simp [Phase.ended]
  · intro a t i next
    exact (kept_step hs next).ended i
  · intro i run start fair begun awake
    by_cases ended : Ended i (run.state 0)
    · exact ⟨0, ended⟩
    · have known : i < s.nextSlot := by
        by_contra unknown
        have endings := (hs.coherent i).ended
        rw [hs.fresh (Nat.not_lt.mp unknown), begun] at endings
        rw [start] at ended
        exact ended endings
      have winding : Winding i (run.state 0) := by
        rw [start]
        exact ⟨hs, known, begun, awake⟩
      exact request_ends run fair winding
  · intro a t k i next
    exact (kept_step hs next).removed k i

/-- Two values go into one session, a third comes when it is closing. -/
theorem sessions_sound_joined :
    ∃ s, ReachableWith (fun _ => .bidiStreaming) Any s ∧ (s.slots 0).endings = 1 ∧ (s.calls 2).phase = .refused ∧
      ∀ a t, step (fun _ => .bidiStreaming) s a = some t → (t.slots 0).closing = true := by
  have run : exec (step fun _ => .bidiStreaming) {} [.start, .consume ⟨0, "a"⟩ false, .begins 0 true, .created 0, .resume 0,
      .consume ⟨0, "a"⟩ false, .resume 1, .consumeSettles 0 true, .done 0, .wakes 0, .consume ⟨0, "a"⟩ false,
      .closes 0 true, .answers 0 true, .receives 0, .consumeSettles 1 true, .ends 0] = some _ := rfl
  have sound := sessions_sound (exec_steps run)
  exact ⟨_, exec_steps run, rfl, rfl, fun a t next => sound.2.2.1 a t 0 next Nat.zero_lt_one rfl⟩

end GrpcSessions
