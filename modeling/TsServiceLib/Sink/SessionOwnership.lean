import TsServiceLib.Sink.SessionSlots

/-!
The sessions of a sink over whole runs. A key has at most one live session, which
is the one that its slot names, and whoever is in `consumeMessage` is waited for
by a session whose request is still open.
-/
namespace GrpcSessions
open Transitions Function

structure Sessions (s : State) : Prop where
  coherent : ∀ i, (s.slots i).Coherent
  entry : ∀ {k i}, s.pending k = some i → (s.slots i).key = k ∧ (s.slots i).phase ≠ .finished
  live : ∀ {i}, (s.slots i).phase ≠ .finished → s.pending (s.slots i).key = some i
  held : ∀ {c}, (s.calls c).phase = .consuming → (s.slots (s.calls c).slot).Holds c
  fresh : ∀ {i}, s.nextSlot ≤ i → (s.slots i).phase = .finished
  waiting : ∀ {c}, (s.calls c).phase = .waiting → c < s.nextCall
  members : ∀ {i c}, (s.slots i).Member c → c < s.nextCall ∧ (s.calls c).phase ≠ .waiting

section Frames
variable {s : State} {i c : Nat}

/-- What a move says of the other slots is what it was, and of its own what it is now. -/
theorem slots_update {P : Nat → Slot → Prop} {x : Slot} (own : P i x) (others : ∀ j, j ≠ i → P j (s.slots j)) (j : Nat) :
    P j ((s.setSlot i x).slots j) := by
  by_cases same : j = i
  · subst same
    simpa [State.setSlot] using own
  · simpa [State.setSlot, update_of_ne same] using others j same

theorem sessions_setSlot (hs : Sessions s) {x : Slot} (key : x.key = (s.slots i).key) (coherent : x.Coherent)
    (finished : x.phase = .finished ↔ (s.slots i).phase = .finished)
    (held : ∀ c, (s.calls c).phase = .consuming → (s.calls c).slot = i → x.Holds c)
    (members : ∀ c, x.Member c → (s.slots i).Member c) : Sessions (s.setSlot i x) := by
  constructor
  · exact slots_update (P := fun _ y => y.Coherent) coherent (fun j _ => hs.coherent j)
  · intro k j entry
    obtain ⟨sameKey, alive⟩ := hs.entry entry
    revert sameKey alive
    apply slots_update (P := fun j y => (s.slots j).key = k → (s.slots j).phase ≠ .finished → y.key = k ∧ y.phase ≠ .finished)
    · intro sameKey alive
      exact ⟨key.trans sameKey, fun gone => alive (finished.mp gone)⟩
    · intro _ _ sameKey alive
      exact ⟨sameKey, alive⟩
  · intro j
    apply slots_update (P := fun j y => y.phase ≠ .finished → s.pending y.key = some j)
    · intro alive
      rw [key]
      exact hs.live (fun gone => alive (finished.mpr gone))
    · intro j _ alive
      exact hs.live alive
  · intro c consuming
    have there : ∀ j, (s.calls c).slot = j → ((s.setSlot i x).slots j).Holds c := by
      apply slots_update (P := fun j y => (s.calls c).slot = j → y.Holds c)
      · exact held c consuming
      · intro j _ at_
        rw [← at_]
        exact hs.held consuming
    exact there _ rfl
  · intro j
    apply slots_update (P := fun j y => s.nextSlot ≤ j → y.phase = .finished)
    · intro unknown
      exact finished.mpr (hs.fresh unknown)
    · intro j _ unknown
      exact hs.fresh unknown
  · exact hs.waiting
  · intro j c
    apply slots_update (P := fun _ y => y.Member c → c < s.nextCall ∧ (s.calls c).phase ≠ .waiting)
    · intro member
      exact hs.members (members c member)
    · intro j _ member
      exact hs.members member

theorem sessions_follow (hs : Sessions s) {x : Slot} (follows : (s.slots i).Follows x) : Sessions (s.setSlot i x) := by
  apply sessions_setSlot hs follows.key (follows.coherent (hs.coherent i)) follows.finished _ follows.members
  intro c consuming at_
  have held := hs.held consuming
  rw [at_] at held
  exact follows.holds c held

theorem sessions_remove (hs : Sessions s) {x : Slot} (alive : (s.slots i).phase ≠ .finished) (key : x.key = (s.slots i).key)
    (coherent : x.Coherent) (finished : x.phase = .finished)
    (left : ∀ c, (s.calls c).phase = .consuming → (s.calls c).slot ≠ i) (members : x.consumers = (s.slots i).consumers) :
    Sessions ((s.setSlot i x).delete (s.slots i).key) := by
  constructor
  · exact slots_update (P := fun _ y => y.Coherent) coherent (fun j _ => hs.coherent j)
  · intro k j entry
    by_cases own : k = (s.slots i).key
    · subst own
      simp [State.delete] at entry
    · have before : s.pending k = some j := by simpa [State.delete, State.setSlot, update_of_ne own] using entry
      obtain ⟨sameKey, there⟩ := hs.entry before
      have other : j ≠ i := by
        intro same
        subst same
        exact own sameKey.symm
      simpa [State.delete, State.setSlot, update_of_ne other] using ⟨sameKey, there⟩
  · intro j there
    by_cases same : j = i
    · subst same
      exact absurd (by simpa [State.delete, State.setSlot] using finished) there
    · have before : (s.slots j).phase ≠ .finished := by simpa [State.delete, State.setSlot, update_of_ne same] using there
      have other : (s.slots j).key ≠ (s.slots i).key := by
        intro sameKey
        have first := hs.live before
        rw [sameKey, hs.live alive] at first
        exact same (Option.some.inj first).symm
      simpa [State.delete, State.setSlot, update_of_ne same, update_of_ne other] using hs.live before
  · intro c consuming
    have other : (s.calls c).slot ≠ i := left c consuming
    simpa [State.delete, State.setSlot, update_of_ne other] using hs.held (c := c) consuming
  · intro j
    apply slots_update (P := fun j y => s.nextSlot ≤ j → y.phase = .finished)
    · exact fun _ => finished
    · intro j _ unknown
      exact hs.fresh unknown
  · exact hs.waiting
  · intro j c
    apply slots_update (P := fun _ y => y.Member c → c < s.nextCall ∧ (s.calls c).phase ≠ .waiting)
    · intro member
      rw [Slot.Member, finished, members] at member
      exact hs.members (.inl (member.elim id (absurd · (Finset.notMem_empty _))))
    · intro j _ member
      exact hs.members member

theorem sessions_setCall (hs : Sessions s) {phase : CallPhase} (idle : phase ≠ .consuming) (served : phase ≠ .waiting) :
    Sessions (s.setCall c phase) := by
  constructor
  · exact hs.coherent
  · exact hs.entry
  · exact hs.live
  · intro d consuming
    by_cases same : d = c
    · subst same
      exact absurd (by simpa [State.setCall] using consuming) idle
    · have before : (s.calls d).phase = .consuming := by simpa [State.setCall, update_of_ne same] using consuming
      simpa [State.setCall, update_of_ne same] using hs.held before
  · exact hs.fresh
  · intro d waiting
    by_cases same : d = c
    · subst same
      exact absurd (by simpa [State.setCall] using waiting) served
    · exact hs.waiting (by simpa [State.setCall, update_of_ne same] using waiting)
  · intro j d member
    obtain ⟨known, busy⟩ := hs.members member
    by_cases same : d = c
    · subst same
      exact ⟨known, by simpa [State.setCall] using served⟩
    · exact ⟨known, by simpa [State.setCall, update_of_ne same] using busy⟩

/-- A value goes into a session that waits for its result. -/
theorem sessions_admit (hs : Sessions s) (waits : (s.calls c).phase = .waiting)
    (waiting : (s.slots (s.calls c).slot).phase = .waiting) :
    Sessions ((s.setSlot (s.calls c).slot { s.slots (s.calls c).slot with
      consumers := insert c (s.slots (s.calls c).slot).consumers }).setCall c .consuming) := by
  have member : ∀ {j d}, (((s.setSlot (s.calls c).slot { s.slots (s.calls c).slot with
      consumers := insert c (s.slots (s.calls c).slot).consumers }).slots j).Member d) →
      d = c ∨ (s.slots j).Member d := by
    intro j d
    apply slots_update (P := fun j y => y.Member d → d = c ∨ (s.slots j).Member d)
    · rintro (consumer | snapshot)
      · rcases Finset.mem_insert.mp consumer with new | old
        · exact .inl new
        · exact .inr (.inl old)
      · exact .inr (.inr snapshot)
    · exact fun _ _ old => .inr old
  constructor
  · apply slots_update (P := fun _ y => y.Coherent)
    · exact Slot.coherent_aside (hs.coherent _) ⟨rfl, rfl, rfl, rfl, rfl, rfl, rfl⟩ rfl rfl rfl (hs.coherent _).single
    · exact fun j _ => hs.coherent j
  · intro k j entry
    have before := hs.entry entry
    revert before
    apply slots_update (P := fun j y =>
      (s.slots j).key = k ∧ (s.slots j).phase ≠ .finished → y.key = k ∧ y.phase ≠ .finished)
    · exact id
    · exact fun _ _ => id
  · intro j
    apply slots_update (P := fun j y => y.phase ≠ .finished → s.pending y.key = some j)
    · exact fun alive => hs.live alive
    · exact fun _ _ alive => hs.live alive
  · intro d consuming
    by_cases same : d = c
    · subst same
      simp [State.setCall, State.setSlot, Slot.Holds, waiting, Phase.Awaits]
    · have before : (s.calls d).phase = .consuming := by
        simpa [State.setCall, State.setSlot, update_of_ne same] using consuming
      have held := hs.held before
      have there : ∀ j, (s.calls d).slot = j → ((s.setSlot (s.calls c).slot { s.slots (s.calls c).slot with
          consumers := insert c (s.slots (s.calls c).slot).consumers }).slots j).Holds d := by
        apply slots_update (P := fun j y => (s.calls d).slot = j → y.Holds d)
        · intro at_
          rw [at_] at held
          exact ⟨Finset.mem_insert_of_mem held.1, held.2⟩
        · intro j _ at_
          rw [← at_]
          exact held
      simpa only [State.setCall, State.setSlot, update_of_ne same] using there _ rfl
  · intro j
    apply slots_update (P := fun j y => s.nextSlot ≤ j → y.phase = .finished)
    · exact fun unknown => hs.fresh unknown
    · exact fun _ _ unknown => hs.fresh unknown
  · intro d waitsStill
    by_cases same : d = c
    · subst same
      simp [State.setCall] at waitsStill
    · exact hs.waiting (by simpa [State.setCall, State.setSlot, update_of_ne same] using waitsStill)
  · intro j d held
    by_cases same : d = c
    · subst same
      exact ⟨hs.waiting waits, by simp [State.setCall]⟩
    · obtain ⟨known, busy⟩ := hs.members ((member held).resolve_left same)
      exact ⟨known, by simpa [State.setCall, State.setSlot, update_of_ne same] using busy⟩

theorem sessions_join (hs : Sessions s) : Sessions (s.join i) := by
  constructor
  · exact hs.coherent
  · exact hs.entry
  · exact hs.live
  · intro d consuming
    by_cases same : d = s.nextCall
    · subst same
      simp only [State.join, update_self] at consuming
      split at consuming
      · cases consuming
      · cases consuming
    · have before : (s.calls d).phase = .consuming := by simpa [State.join, update_of_ne same] using consuming
      simpa [State.join, update_of_ne same] using hs.held before
  · exact hs.fresh
  · intro d waiting
    by_cases same : d = s.nextCall
    · subst same
      exact Nat.lt_succ_self s.nextCall
    · exact Nat.lt_succ_of_lt (hs.waiting (by simpa [State.join, update_of_ne same] using waiting))
  · intro j d member
    obtain ⟨known, busy⟩ := hs.members member
    have older : d ≠ s.nextCall := by omega
    exact ⟨Nat.lt_succ_of_lt known, by simpa [State.join, update_of_ne older] using busy⟩

theorem sessions_openSlot (hs : Sessions s) {kind : Kind} {k : Key} (free : s.pending k = none) :
    Sessions (s.openSlot kind k) := by
  have unused : (s.slots s.nextSlot).phase = .finished := hs.fresh le_rfl
  constructor
  · intro j
    by_cases same : j = s.nextSlot
    · subst same
      simpa [State.openSlot] using Slot.coherent_opened kind k
    · simpa [State.openSlot, update_of_ne same] using hs.coherent j
  · intro l j entry
    by_cases own : l = k
    · subst own
      have same : s.nextSlot = j := by simpa [State.openSlot] using entry
      subst same
      simp [State.openSlot]
    · have before : s.pending l = some j := by simpa [State.openSlot, update_of_ne own] using entry
      obtain ⟨sameKey, alive⟩ := hs.entry before
      have other : j ≠ s.nextSlot := by
        intro same
        subst same
        exact alive unused
      simpa [State.openSlot, update_of_ne other] using ⟨sameKey, alive⟩
  · intro j alive
    by_cases same : j = s.nextSlot
    · subst same
      simp [State.openSlot]
    · have before : (s.slots j).phase ≠ .finished := by simpa [State.openSlot, update_of_ne same] using alive
      have entry := hs.live before
      have other : (s.slots j).key ≠ k := by
        intro own
        rw [own, free] at entry
        cases entry
      simpa [State.openSlot, update_of_ne same, update_of_ne other] using entry
  · intro c consuming
    have held : (s.slots (s.calls c).slot).Holds c := hs.held consuming
    have other : (s.calls c).slot ≠ s.nextSlot := by
      intro same
      rw [same, Slot.Holds, unused] at held
      exact held.2
    simpa [State.openSlot, update_of_ne other] using held
  · intro j unknown
    have bound : s.nextSlot + 1 ≤ j := unknown
    have other : j ≠ s.nextSlot := by omega
    simpa [State.openSlot, update_of_ne other] using hs.fresh (i := j) (by omega)
  · exact hs.waiting
  · intro j d member
    by_cases same : j = s.nextSlot
    · subst same
      simp [State.openSlot, Slot.Member, Phase.snapshot] at member
    · exact hs.members (i := j) (by simpa [State.openSlot, update_of_ne same] using member)

theorem sessions_sink {tasks : Finset Task} {started : Bool} {stops : Nat → StopPhase} {nextStop : Nat}
    {expired : Finset Nat} (hs : Sessions s) :
    Sessions { s with tasks := tasks, started := started, stops := stops, nextStop := nextStop, expired := expired } := by
  constructor
  · exact hs.coherent
  · exact hs.entry
  · exact hs.live
  · exact hs.held
  · exact hs.fresh
  · exact hs.waiting
  · exact hs.members

end Frames

/-- The steps at the end of a `createSession` or a `finishSession`, with its slot. -/
def Action.removes : Action → Option Nat
  | .beginFails i => some i
  | .abandoned i => some i
  | .ended i => some i
  | _ => none

/-- A session into which a value may still go. -/
def Slot.Admits (x : Slot) : Prop := x.closing = false ∧ x.done = false ∧ x.cancelled = false

structure Kept (s : State) (a : Action) (t : State) : Prop where
  sessions : Sessions t
  closing : ∀ i, i < s.nextSlot → (s.slots i).closing = true → (t.slots i).closing = true
  ended : ∀ i, (s.slots i).endings < (t.slots i).endings → ∀ c, (s.calls c).slot = i → (s.calls c).phase ≠ .consuming
  started : ∀ c, (s.calls c).phase ≠ .consuming → (t.calls c).phase = .consuming → (s.slots (t.calls c).slot).Admits
  removed : ∀ k i, s.pending k = some i → t.pending k ≠ some i → a.removes = some i
  slots : s.nextSlot ≤ t.nextSlot

section Steps
variable {s t : State} {a : Action} {i c : Nat}

theorem kept_setSlot {x : Slot} (sessions : Sessions (s.setSlot i x)) (closing : (s.slots i).closing = true → x.closing = true)
    (ended : (s.slots i).endings < x.endings → ∀ c, (s.calls c).slot = i → (s.calls c).phase ≠ .consuming) :
    Kept s a (s.setSlot i x) := by
  constructor
  · exact sessions
  · intro j _
    apply slots_update (P := fun j y => (s.slots j).closing = true → y.closing = true)
    · exact closing
    · exact fun _ _ closed => closed
  · intro j
    apply slots_update (P := fun j y => (s.slots j).endings < y.endings → ∀ c, (s.calls c).slot = j → (s.calls c).phase ≠ .consuming)
    · exact ended
    · intro j _ more
      exact absurd more (lt_irrefl _)
  · intro c idle consuming
    exact absurd consuming idle
  · intro k j entry gone
    exact absurd entry gone
  · exact le_rfl

theorem kept_follow (hs : Sessions s) {x : Slot} (follows : (s.slots i).Follows x) : Kept s a (s.setSlot i x) := by
  apply kept_setSlot (sessions_follow hs follows) follows.closing
  intro more
  rw [follows.endings] at more
  exact absurd more (lt_irrefl _)

theorem kept_sink {tasks : Finset Task} {started : Bool} {stops : Nat → StopPhase} {nextStop : Nat} {expired : Finset Nat}
    (kept : Kept s a t) :
    Kept s a { t with tasks := tasks, started := started, stops := stops, nextStop := nextStop, expired := expired } := by
  constructor
  · exact sessions_sink kept.sessions
  · exact kept.closing
  · exact kept.ended
  · exact kept.started
  · exact kept.removed
  · exact kept.slots

theorem kept_same (hs : Sessions s) : Kept s a s := by
  constructor
  · exact hs
  · exact fun _ _ closed => closed
  · intro i more
    exact absurd more (lt_irrefl _)
  · intro c idle consuming
    exact absurd consuming idle
  · intro k i entry gone
    exact absurd entry gone
  · exact le_rfl

theorem kept_setCall {phase : CallPhase} (kept : Kept s a t) (idle : phase ≠ .consuming) (served : phase ≠ .waiting) :
    Kept s a (t.setCall c phase) := by
  constructor
  · exact sessions_setCall kept.sessions idle served
  · exact kept.closing
  · exact kept.ended
  · intro d before consuming
    by_cases same : d = c
    · subst same
      exact absurd (by simpa [State.setCall] using consuming) idle
    · have later : (t.calls d).phase = .consuming := by simpa [State.setCall, update_of_ne same] using consuming
      simpa [State.setCall, update_of_ne same] using kept.started d before later
  · exact kept.removed
  · exact kept.slots

theorem kept_join (kept : Kept s a t) : Kept s a (t.join i) := by
  constructor
  · exact sessions_join kept.sessions
  · exact kept.closing
  · exact kept.ended
  · intro d before consuming
    by_cases same : d = t.nextCall
    · subst same
      simp only [State.join, update_self] at consuming
      split at consuming
      · cases consuming
      · cases consuming
    · have later : (t.calls d).phase = .consuming := by simpa [State.join, update_of_ne same] using consuming
      simpa [State.join, update_of_ne same] using kept.started d before later
  · exact kept.removed
  · exact kept.slots

theorem kept_remove (hs : Sessions s) {x : Slot} (alive : (s.slots i).phase ≠ .finished) (key : x.key = (s.slots i).key)
    (coherent : x.Coherent) (finished : x.phase = .finished) (endings : x.endings = (s.slots i).endings)
    (left : ∀ c, (s.calls c).phase = .consuming → (s.calls c).slot ≠ i) (members : x.consumers = (s.slots i).consumers) (removes : a.removes = some i) :
    Kept s a ((s.setSlot i x).delete (s.slots i).key) := by
  constructor
  · exact sessions_remove hs alive key coherent finished left members
  · intro j _
    apply slots_update (P := fun j y => (s.slots j).closing = true → y.closing = true)
    · intro _
      exact coherent.closed (by rw [finished]; rfl)
    · exact fun _ _ closed => closed
  · intro j
    apply slots_update (P := fun j y => (s.slots j).endings < y.endings → ∀ c, (s.calls c).slot = j → (s.calls c).phase ≠ .consuming)
    · intro more
      rw [endings] at more
      exact absurd more (lt_irrefl _)
    · intro j _ more
      exact absurd more (lt_irrefl _)
  · intro c idle consuming
    exact absurd consuming idle
  · intro k j entry gone
    by_cases own : k = (s.slots i).key
    · subst own
      rw [hs.live alive] at entry
      rw [removes]
      exact entry
    · exact absurd (by simpa [State.delete, State.setSlot, update_of_ne own] using entry) gone
  · exact le_rfl

theorem kept_new (sessions : Sessions t) (others : ∀ j, j ≠ s.nextSlot → t.slots j = s.slots j)
    (unended : (t.slots s.nextSlot).endings = 0) (calls : t.calls = s.calls)
    (pending : ∀ k i, s.pending k = some i → t.pending k = some i) (slots : s.nextSlot ≤ t.nextSlot) : Kept s a t := by
  constructor
  · exact sessions
  · intro j known closed
    have other : j ≠ s.nextSlot := by omega
    rw [others j other]
    exact closed
  · intro j more
    by_cases same : j = s.nextSlot
    · subst same
      omega
    · rw [others j same] at more
      exact absurd more (lt_irrefl _)
  · intro c idle consuming
    rw [calls] at consuming
    exact absurd consuming idle
  · intro k i entry gone
    exact absurd (pending k i entry) gone
  · exact slots

theorem idle_of_creating (hs : Sessions s) (creating : (s.slots i).phase.creating = true) (c : Nat)
    (consuming : (s.calls c).phase = .consuming) : (s.calls c).slot ≠ i := by
  intro at_
  have held := hs.held consuming
  rw [at_, Slot.Holds] at held
  cases phase : (s.slots i).phase with
  | beginning =>
    rw [phase] at held
    exact held.2
  | abandoning =>
    rw [phase] at held
    exact held.2
  | _ =>
    rw [phase] at creating
    cases creating

theorem not_finished_of_creating {phase : Phase} (creating : phase.creating = true) : phase ≠ .finished := by
  intro finished
  rw [finished] at creating
  cases creating

theorem sessions_dismiss (hs : Sessions s) (creating : (s.slots i).phase.creating = true) : Sessions (s.dismiss i) :=
  sessions_remove hs (not_finished_of_creating creating) rfl (Slot.coherent_dismiss (hs.coherent i) creating) rfl
    (idle_of_creating hs creating) rfl

theorem kept_dismiss (hs : Sessions s) (creating : (s.slots i).phase.creating = true) (removes : a.removes = some i) :
    Kept s a (s.dismiss i) :=
  kept_remove hs (not_finished_of_creating creating) rfl (Slot.coherent_dismiss (hs.coherent i) creating) rfl rfl
    (idle_of_creating hs creating) rfl removes

theorem kept_consume (hs : Sessions s) (kinds : Nat → Kind) (k : Key) (throws : Bool) :
    Kept s a (s.consume kinds k throws) := by
  unfold State.consume
  split
  · exact kept_join (kept_same hs)
  · rename_i free
    have opened : Sessions (s.openSlot (kinds k.consumer) k) := sessions_openSlot hs free
    have taken : ∀ l i, s.pending l = some i → l ≠ k := by
      intro l i entry same
      rw [same, free] at entry
      cases entry
    have creating : ((s.openSlot (kinds k.consumer) k).slots s.nextSlot).phase.creating = true := by
      simp [State.openSlot, Phase.creating]
    split
    · apply kept_join
      apply kept_new (sessions_dismiss opened creating)
      · intro j other
        simp [State.dismiss, State.delete, State.setSlot, State.openSlot, update_of_ne other]
      · simp [State.dismiss, State.delete, State.setSlot, State.openSlot, Slot.dismiss]
      · rfl
      · intro l i entry
        simpa [State.dismiss, State.delete, State.setSlot, State.openSlot, update_of_ne (taken l i entry)] using entry
      · exact Nat.le_succ s.nextSlot
    · apply kept_join
      apply kept_new opened
      · intro j other
        simp [State.openSlot, update_of_ne other]
      · simp [State.openSlot]
      · rfl
      · intro l i entry
        simpa [State.openSlot, update_of_ne (taken l i entry)] using entry
      · exact Nat.le_succ s.nextSlot

theorem waiting_of_admits (hs : Sessions s) (ready : (s.slots i).ready = .resolved) (admits : (s.slots i).Admits) :
    (s.slots i).phase = .waiting := by
  have session := (hs.coherent i).session ((hs.coherent i).resolved ready)
  have past : (s.slots i).phase.past ≠ true := by
    intro past
    have closing := (hs.coherent i).closed past
    rw [admits.1] at closing
    cases closing
  cases phase : (s.slots i).phase with
  | waiting => rfl
  | beginning =>
    rw [phase] at session
    cases session
  | _ =>
    rw [phase] at past
    exact absurd rfl past

theorem kept_admit (hs : Sessions s) (waits : (s.calls c).phase = .waiting)
    (ready : (s.slots (s.calls c).slot).ready = .resolved) (admits : (s.slots (s.calls c).slot).Admits) :
    Kept s a ((s.setSlot (s.calls c).slot { s.slots (s.calls c).slot with
      consumers := insert c (s.slots (s.calls c).slot).consumers }).setCall c .consuming) := by
  constructor
  · exact sessions_admit hs waits (waiting_of_admits hs ready admits)
  · intro j _
    apply slots_update (P := fun j y => (s.slots j).closing = true → y.closing = true)
    · exact id
    · exact fun _ _ => id
  · intro j
    apply slots_update (P := fun j y => (s.slots j).endings < y.endings → ∀ c, (s.calls c).slot = j → (s.calls c).phase ≠ .consuming)
    · intro more
      exact absurd more (lt_irrefl _)
    · intro j _ more
      exact absurd more (lt_irrefl _)
  · intro d before consuming
    by_cases same : d = c
    · subst same
      simpa [State.setCall, State.setSlot] using admits
    · exact absurd (by simpa [State.setCall, State.setSlot, update_of_ne same] using consuming) before
  · intro k j entry gone
    exact absurd entry gone
  · exact le_rfl

theorem kept_resume (hs : Sessions s) (next : s.resume c = some t) : Kept s a t := by
  unfold State.resume at next
  split at next
  · rename_i waits
    simp only at next
    split at next
    · cases next
    · cases next
      exact kept_setCall (kept_same hs) nofun nofun
    · rename_i ready
      split at next
      · cases next
        exact kept_setCall (kept_same hs) nofun nofun
      · rename_i admits
        cases next
        obtain ⟨⟨running, undone⟩, uncancelled⟩ : ((s.slots (s.calls c).slot).closing = false ∧
            (s.slots (s.calls c).slot).done = false) ∧ (s.slots (s.calls c).slot).cancelled = false := by
          simpa using admits
        exact kept_admit hs waits ready ⟨running, undone, uncancelled⟩
  · cases next

theorem kept_consumeSettles (hs : Sessions s) {consumed : Bool} (next : s.consumeSettles c consumed = some t) :
    Kept s a t := by
  unfold State.consumeSettles at next
  split at next
  · cases next
    exact kept_setCall (kept_same hs) nofun nofun
  · cases next

theorem kept_consumeReturns (hs : Sessions s) (next : s.consumeReturns c = some t) : Kept s a t := by
  unfold State.consumeReturns at next
  split at next
  · rename_i consumed phase
    cases next
    apply kept_setCall
    · apply kept_setSlot
      · apply sessions_setSlot hs
        · rfl
        · exact Slot.coherent_aside (hs.coherent _) ⟨rfl, rfl, rfl, rfl, rfl, rfl, rfl⟩ rfl rfl rfl (hs.coherent _).single
        · exact Iff.rfl
        · intro d consuming at_
          have other : d ≠ c := by
            intro same
            rw [same, phase] at consuming
            cases consuming
          have held := hs.held consuming
          rw [at_] at held
          exact ⟨Finset.mem_erase.mpr ⟨other, held.1⟩, held.2⟩
        · intro d member
          exact member.imp Finset.mem_of_mem_erase id
      · exact fun closed => closed
      · intro more
        exact absurd more (lt_irrefl _)
    · nofun
    · nofun
  · cases next

theorem kept_begins (hs : Sessions s) {opens : Bool} (next : s.begins i opens = some t) : Kept s a t := by
  unfold State.begins at next
  split at next
  · rename_i phase
    cases next
    have idle : ∀ c, (s.calls c).slot = i → (s.calls c).phase ≠ .consuming := by
      intro c at_ consuming
      exact idle_of_creating hs (by rw [phase]; rfl) c consuming at_
    cases opens with
    | true => exact kept_sink (kept_follow hs (Slot.follows_begin phase))
    | false =>
      apply kept_setSlot
      · apply sessions_setSlot hs
        · rfl
        · exact Slot.coherent_begin (hs.coherent i) phase false
        · simp [Slot.begin, phase]
        · intro c consuming at_
          exact absurd consuming (idle c at_)
        · intro c member
          exact .inl (member.elim id (absurd · (Finset.notMem_empty _)))
      · exact fun _ => rfl
      · exact fun _ => idle
  · cases next

theorem kept_drains (hs : Sessions s) (next : s.drains i = some t) : Kept s a t := by
  unfold State.drains at next
  split at next
  · rename_i snapshot phase
    split at next
    · cases next
      apply kept_follow hs
      have isOpen : (s.slots i).phase.Open := by
        rw [phase]
        exact ⟨nofun, rfl⟩
      split
      · exact Slot.follows_fail isOpen
      · exact Slot.follows_past isOpen ⟨rfl, rfl, rfl, rfl, rfl, rfl, rfl⟩ ((hs.coherent i).closed (by rw [phase]; rfl)) rfl rfl
          (fun _ mem => ⟨mem, trivial⟩) (fun _ member => member.elim id (absurd · (Finset.notMem_empty _))) nofun rfl
          (fun coherent _ => coherent.unary (by rw [phase]; rfl))
    · cases next
  · cases next

/-- The request is ended when everybody that the session waits for has settled. -/
theorem kept_ends (hs : Sessions s) (next : s.ends i = some t) : Kept s a t := by
  unfold State.ends at next
  split at next
  · rename_i snapshot phase
    split at next
    · rename_i may
      cases next
      have idle : ∀ c, (s.calls c).slot = i → (s.calls c).phase ≠ .consuming := by
        intro c at_ consuming
        have held := hs.held consuming
        rw [at_, Slot.Holds, phase] at held
        exact may.1 c held.2 consuming
      have coherent := hs.coherent i
      have begun : (s.slots i).begun = true := by
        apply (coherent.begun (by rw [phase]; simp)).mpr
        rw [phase]
        simp
      have unended : (s.slots i).endings = 0 := by
        rw [coherent.ended, phase]
        rfl
      apply kept_setSlot
      · apply sessions_setSlot hs
        · rfl
        · constructor
          · intro _
            exact coherent.closed (by rw [phase]; rfl)
          · intro _
            simp [begun]
          · simp [Phase.ended, begun, unended]
          · exact coherent.resolved
          · exact coherent.created
          · exact fun _ => rfl
          · intro isOpen
            cases isOpen.2
          · simp
          · exact coherent.single
          · intros
            contradiction
        · simp [phase]
        · intro c consuming at_
          exact absurd consuming (idle c at_)
        · intro c member
          exact .inl (member.elim id (absurd · (Finset.notMem_empty _)))
      · exact fun closed => closed
      · exact fun _ => idle
    · cases next
  · cases next

theorem kept_ended (hs : Sessions s) (next : s.ended i = some t) (removes : a.removes = some i) : Kept s a t := by
  unfold State.ended at next
  split at next
  · rename_i phase
    cases next
    have coherent := hs.coherent i
    apply kept_remove hs
    · rw [phase]
      simp
    · rfl
    · constructor
      · intro _
        exact coherent.closed (by rw [phase]; rfl)
      · simp
      · simpa [phase, Phase.ended] using coherent.ended
      · exact coherent.resolved
      · exact coherent.created
      · exact fun _ => rfl
      · intro isOpen
        cases isOpen.2
      · simp
      · exact coherent.single
      · intros
        contradiction
    · rfl
    · rfl
    · intro c consuming at_
      have held := hs.held consuming
      rw [at_, Slot.Holds, phase] at held
      exact held.2
    · rfl
    · exact removes
  · cases next

theorem kept_stop (hs : Sessions s) : Kept s a s.stop := by
  unfold State.stop
  split
  · exact kept_sink (kept_same hs)
  · exact kept_same hs

/-- A field is set under a condition, and it does not say where the session stands. -/
theorem kept_aside (hs : Sessions s) {x : Slot} {may : Prop} [Decidable may]
    (next : (if may then some (s.setSlot i x) else none) = some t) (same : (s.slots i).SameRequest x)
    (phase : x.phase = (s.slots i).phase) (closing : x.closing = (s.slots i).closing)
    (consumers : x.consumers = (s.slots i).consumers) (active : x.active = (s.slots i).active)
    (received : x.received = (s.slots i).received) : Kept s a t := by
  split at next
  · cases next
    apply kept_follow hs (Slot.follows_aside same phase closing consumers active _)
    intro coherent
    rw [same.kind, received]
    exact coherent.single
  · cases next

theorem open_of_waiting (phase : (s.slots i).phase = .waiting) : (s.slots i).phase.Open := by
  rw [phase]
  exact ⟨nofun, rfl⟩

end Steps

theorem kept_step {kinds : Nat → Kind} {s t : State} {a : Action} (hs : Sessions s) (next : step kinds s a = some t) :
    Kept s a t := by
  cases a with
  | consume k throws =>
    cases next
    exact kept_consume hs kinds k throws
  | resume c => exact kept_resume hs next
  | consumeSettles c consumed => exact kept_consumeSettles hs next
  | consumeReturns c => exact kept_consumeReturns hs next
  | begins i opens => exact kept_begins hs next
  | beginFails i =>
    simp only [step, State.beginFails] at next
    split at next
    · rename_i phase
      cases next
      exact kept_dismiss hs (by rw [phase]; rfl) rfl
    · cases next
  | abandoned i =>
    simp only [step, State.abandoned] at next
    split at next
    · rename_i phase
      cases next
      exact kept_dismiss hs (by rw [phase]; rfl) rfl
    · cases next
  | created i =>
    simp only [step, State.created] at next
    split at next
    · rename_i session creation
      cases next
      exact kept_follow hs (Slot.follows_settleReady creation)
    · cases next
  | wakes i =>
    simp only [step, State.wakes] at next
    split at next
    · rename_i may
      cases next
      exact kept_follow hs (Slot.follows_close (open_of_waiting may.1) false)
    · cases next
  | aborts i =>
    simp only [step, State.aborts] at next
    split at next
    · rename_i may
      cases next
      exact kept_follow hs (Slot.follows_fail (open_of_waiting may.1))
    · cases next
  | receives i =>
    obtain ⟨x, received, rfl⟩ := Option.map_eq_some_iff.mp next
    exact kept_follow hs (Slot.follows_receive (hs.coherent i) received)
  | closes i ok =>
    obtain ⟨x, closed, rfl⟩ := Option.map_eq_some_iff.mp next
    exact kept_follow hs (Slot.follows_closed (hs.coherent i) closed)
  | handles i ok =>
    obtain ⟨x, handled, rfl⟩ := Option.map_eq_some_iff.mp next
    exact kept_follow hs (Slot.follows_handled handled)
  | drains i => exact kept_drains hs next
  | ends i => exact kept_ends hs next
  | ended i => exact kept_ended hs next rfl
  | done i =>
    simp only [step, State.done] at next
    exact kept_aside hs next ⟨rfl, rfl, rfl, rfl, rfl, rfl, rfl⟩ rfl rfl rfl rfl rfl
  | cancels i =>
    simp only [step, State.cancels] at next
    exact kept_aside hs next ⟨rfl, rfl, rfl, rfl, rfl, rfl, rfl⟩ rfl rfl rfl rfl rfl
  | sends i =>
    simp only [step, State.sends] at next
    exact kept_aside hs next ⟨rfl, rfl, rfl, rfl, rfl, rfl, rfl⟩ rfl rfl rfl rfl rfl
  | written i =>
    simp only [step, State.written] at next
    exact kept_aside hs next ⟨rfl, rfl, rfl, rfl, rfl, rfl, rfl⟩ rfl rfl rfl rfl rfl
  | answers i ok =>
    simp only [step, State.answers] at next
    split at next
    · cases next
      apply kept_follow hs (Slot.follows_received _)
      intro _
      cases ok <;> simp
    · cases next
  | responds i =>
    simp only [step, State.responds] at next
    split at next
    · rename_i may
      cases next
      apply kept_follow hs (Slot.follows_received _)
      intro client
      rw [may.1] at client
      cases client
    · cases next
  | forgets task =>
    simp only [step, State.forgets] at next
    split at next
    · cases next
      exact kept_sink (kept_same hs)
    · cases next
  | start =>
    cases next
    exact kept_sink (kept_same hs)
  | stop =>
    cases next
    exact kept_stop hs
  | stopExpires id =>
    cases next
    exact kept_sink (kept_same hs)
  | stopCloses id =>
    simp only [step, State.stopCloses] at next
    split at next
    · split at next
      · cases next
        exact kept_sink (kept_same hs)
      · cases next
    · cases next

theorem sessions_initial : Sessions {} := by
  constructor
  · intro i
    exact Slot.coherent_default
  · nofun
  · intro i alive
    exact absurd rfl alive
  · nofun
  · intro i _
    rfl
  · nofun
  · rintro i c (consumer | snapshot)
    · exact absurd consumer (Finset.notMem_empty c)
    · exact absurd snapshot (Finset.notMem_empty c)

theorem sessions_reachable {kinds : Nat → Kind} {ok : State → Action → Prop} {s : State}
    (reach : ReachableWith kinds ok s) : Sessions s :=
  steps_invariant Sessions (fun _ _ _ hs _ next => (kept_step hs next).sessions) reach sessions_initial

end GrpcSessions
