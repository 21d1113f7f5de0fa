import TsServiceLib.Store.JoinSteps

/-!
The references between the records of the join storage. Operations, calls,
registrations and map entries only name what has been allocated, an item is
stored only under the key it was created for and in one generation, and a call
awaits exactly its own unsettled operation.
-/
namespace JoinStorage
open OrderedMaps TailChain Numbers Function
variable {K V : Type}

theorem update_key {f : Nat → Item K V} {i : Nat} (content : Item K V)
    (same : content.key = (f i).key) (j : Nat) : (update f i content j).key = (f j).key := by
  by_cases eq : j = i
  · subst j
    rw [update_self, same]
  · rw [update_of_ne eq]

variable [DecidableEq K]

structure Stored (s : State K V) : Prop where
  current_item : ∀ {k i}, s.current.get k = some i → i < s.nextItem ∧ (s.items i).key = k
  previous_item : ∀ {k i}, s.previous.get k = some i → i < s.nextItem ∧ (s.items i).key = k
  one_generation : ∀ {k i}, s.current.get k = some i → s.previous.get k = none

structure Wired (s : State K V) : Prop where
  chain : s.chain.WellFormed
  lane_item : ∀ {o}, o < s.chain.next → s.chain.lane o < s.nextItem
  join_body : ∀ {o c}, o < s.chain.next → (s.operations o).body = .join c →
    c < s.nextCall ∧ (s.items (s.chain.lane o)).key = (s.calls c).key
  expire_body : ∀ {o a}, o < s.chain.next → (s.operations o).body = .expire a →
    a < s.nextArm ∧ (s.arms a).item = s.chain.lane o
  arm_item : ∀ {a}, a < s.nextArm →
    (s.arms a).item < s.nextItem ∧ (s.items (s.arms a).item).key = (s.arms a).key
  stored : Stored s
  awaiting : ∀ {c o}, c < s.nextCall → (s.calls c).phase = .awaiting o →
    o < s.chain.next ∧ (s.operations o).body = .join c ∧ s.chain.status o ≠ .settled
  pending : ∀ {o c}, o < s.chain.next → (s.operations o).body = .join c →
    s.chain.status o ≠ .settled → (s.calls c).phase = .awaiting o

theorem stored_armsOnly {s t : State K V} (h : Stored s) (only : ArmsOnly s t) : Stored t where
  current_item := by
    intro k i get
    rw [only.current] at get
    rw [only.nextItem, only.key]
    exact h.current_item get
  previous_item := by
    intro k i get
    rw [only.previous] at get
    rw [only.nextItem, only.key]
    exact h.previous_item get
  one_generation := by
    intro k i get
    rw [only.current] at get
    rw [only.previous]
    exact h.one_generation get

theorem wired_armsOnly {s t : State K V} (h : Wired s) (only : ArmsOnly s t) : Wired t where
  chain := only.chain h.chain
  lane_item := by
    intro o lt
    rw [only.nextItem]
    by_cases old : o < s.chain.next
    · rw [only.lane old]
      exact h.lane_item old
    · obtain ⟨_, a, _, alt, item⟩ := only.fresh (by omega) lt
      rw [← item]
      by_cases olda : a < s.nextArm
      · rw [(only.arm olda).2.2]
        exact (h.arm_item olda).1
      · exact (only.new_arm (by omega) alt).1
  join_body := by
    intro o c lt body
    by_cases old : o < s.chain.next
    · rw [only.operation old] at body
      rw [only.lane old, only.key, only.calls, only.nextCall]
      exact h.join_body old body
    · obtain ⟨_, a, op, _⟩ := only.fresh (by omega) lt
      rw [op] at body
      cases body
  expire_body := by
    intro o a lt body
    by_cases old : o < s.chain.next
    · rw [only.operation old] at body
      obtain ⟨alt, item⟩ := h.expire_body old body
      rw [only.lane old, (only.arm alt).2.2]
      exact ⟨Nat.lt_of_lt_of_le alt only.nextArm_le, item⟩
    · obtain ⟨_, b, op, blt, item⟩ := only.fresh (by omega) lt
      rw [op] at body
      cases body
      exact ⟨blt, item⟩
  arm_item := by
    intro a lt
    rw [only.nextItem, only.key]
    by_cases old : a < s.nextArm
    · rw [(only.arm old).2.2, (only.arm old).2.1]
      exact h.arm_item old
    · exact only.new_arm (by omega) lt
  stored := stored_armsOnly h.stored only
  awaiting := by
    intro c o lt phase
    rw [only.nextCall] at lt
    rw [only.calls] at phase
    obtain ⟨olt, body, unsettled⟩ := h.awaiting lt phase
    rw [only.operation olt, only.status olt]
    exact ⟨Nat.lt_of_lt_of_le olt only.next_le, body, unsettled⟩
  pending := by
    intro o c lt body unsettled
    rw [only.calls]
    by_cases old : o < s.chain.next
    · rw [only.operation old] at body
      rw [only.status old] at unsettled
      exact h.pending old body unsettled
    · obtain ⟨_, a, op, _⟩ := only.fresh (by omega) lt
      rw [op] at body
      cases body

/- `Wired` reads the maps, the chain, the bodies of operations and the keys of
   items; a step that keeps these keeps it. -/
theorem wired_stored {s t : State K V} (h : Wired s) (stored : Stored t)
    (keys : ∀ i, (t.items i).key = (s.items i).key) (nextItem : t.nextItem = s.nextItem)
    (arms : t.arms = s.arms) (nextArm : t.nextArm = s.nextArm)
    (bodies : ∀ o, (t.operations o).body = (s.operations o).body) (chain : t.chain = s.chain)
    (calls : t.calls = s.calls) (nextCall : t.nextCall = s.nextCall) : Wired t where
  chain := chain ▸ h.chain
  lane_item := by
    rw [chain, nextItem]
    exact h.lane_item
  join_body := by
    intro o c lt body
    rw [chain] at lt
    rw [bodies] at body
    rw [chain, keys, calls, nextCall]
    exact h.join_body lt body
  expire_body := by
    intro o a lt body
    rw [chain] at lt
    rw [bodies] at body
    rw [chain, arms, nextArm]
    exact h.expire_body lt body
  arm_item := by
    intro a lt
    rw [nextArm] at lt
    rw [arms, nextItem, keys]
    exact h.arm_item lt
  stored := stored
  awaiting := by
    intro c o lt phase
    rw [nextCall] at lt
    rw [calls] at phase
    rw [chain, bodies]
    exact h.awaiting lt phase
  pending := by
    intro o c lt body unsettled
    rw [chain] at lt unsettled
    rw [bodies] at body
    rw [calls]
    exact h.pending lt body unsettled

theorem stored_congr {s t : State K V} (h : Stored s) (current : t.current = s.current)
    (previous : t.previous = s.previous) (keys : ∀ i, (t.items i).key = (s.items i).key)
    (nextItem : t.nextItem = s.nextItem) : Stored t := by
  constructor
  · intro k i get
    rw [current] at get
    rw [nextItem, keys]
    exact h.current_item get
  · intro k i get
    rw [previous] at get
    rw [nextItem, keys]
    exact h.previous_item get
  · rw [current, previous]
    exact h.one_generation

/-- Clocks, configuration and counters are no business of the references. -/
theorem wired_same {s t : State K V} (h : Wired s) (objects : t.objects = s.objects)
    (current : t.current = s.current) (previous : t.previous = s.previous) : Wired t := by
  obtain ⟨operations, chain, items, nextItem, arms, nextArm, calls, nextCall⟩ := objects_same objects
  have keys : ∀ i, (t.items i).key = (s.items i).key := fun i => by rw [items]
  have bodies : ∀ o, (t.operations o).body = (s.operations o).body := fun o => by rw [operations]
  exact wired_stored h (stored_congr h.stored current previous keys nextItem) keys nextItem arms nextArm
    bodies chain calls nextCall

theorem update_body {f : Nat → Operation} {o : Nat} (stage : Stage) (p : Nat) :
    (update f o { f o with stage := stage } p).body = (f p).body := by
  by_cases eq : p = o
  · subst p
    rw [update_self]
  · rw [update_of_ne eq]

theorem wired_setItem {s : State K V} (h : Wired s) {i : Nat} {content : Item K V}
    (same : content.key = (s.items i).key) : Wired (s.setItem i content) :=
  wired_stored h (stored_congr h.stored rfl rfl (update_key _ same) rfl) (update_key _ same) rfl rfl rfl
    (fun _ => rfl) rfl rfl rfl

theorem wired_setValues {s : State K V} (h : Wired s) (i : Nat) (values : List (List V)) :
    Wired (s.setValues i values) :=
  wired_setItem h rfl

theorem wired_setProcessed {s : State K V} (h : Wired s) (i : Nat) (processed : Bool) :
    Wired (s.setProcessed i processed) :=
  wired_setItem h rfl

theorem wired_setStage {s : State K V} (h : Wired s) (o : Nat) (stage : Stage) :
    Wired (s.setStage o stage) :=
  wired_stored h (stored_congr h.stored rfl rfl (fun _ => rfl) rfl) (fun _ => rfl) rfl rfl rfl
    (update_body stage) rfl rfl rfl

theorem wired_record {s : State K V} (h : Wired s) (event : Event V) : Wired (s.record event) :=
  wired_same h rfl rfl rfl

theorem wired_begin {s : State K V} (h : Wired s) {o : Nat} (ready : s.chain.ready o = true) :
    Wired (s.begin o) where
  chain := Chain.start_wellFormed h.chain ready
  lane_item := h.lane_item
  join_body := h.join_body
  expire_body := h.expire_body
  arm_item := h.arm_item
  stored := ⟨h.stored.current_item, h.stored.previous_item, h.stored.one_generation⟩
  awaiting := by
    intro c p lt phase
    obtain ⟨plt, body, unsettled⟩ := h.awaiting lt phase
    refine ⟨plt, body, ?_⟩
    by_cases same : p = o
    · subst p
      simp [State.begin, Chain.start]
    · simpa [State.begin, Chain.start, update_of_ne same] using unsettled
  pending := by
    intro p c lt body unsettled
    apply h.pending lt body
    by_cases same : p = o
    · subst p
      rw [((Chain.ready_iff _ _).mp ready).2.1]
      decide
    · simpa [State.begin, Chain.start, update_of_ne same] using unsettled

/- An operation settles. A join operation takes its call out of the loop's
   `await` in the same step; an expiry operation has no call. -/
theorem wired_settle {s : State K V} (h : Wired s) {o a : Nat} (lt : o < s.chain.next)
    (running : s.chain.status o = .running) (body : (s.operations o).body = .expire a) :
    Wired (s.settle o) where
  chain := Chain.settle_wellFormed h.chain lt (by rw [running]; decide)
  lane_item := h.lane_item
  join_body := h.join_body
  expire_body := h.expire_body
  arm_item := h.arm_item
  stored := ⟨h.stored.current_item, h.stored.previous_item, h.stored.one_generation⟩
  awaiting := by
    intro c p clt phase
    obtain ⟨plt, pbody, unsettled⟩ := h.awaiting clt phase
    have other : p ≠ o := bodies_apart body pbody nofun
    exact ⟨plt, pbody, by simpa [State.settle, Chain.settle, update_of_ne other] using unsettled⟩
  pending := by
    intro p c plt pbody unsettled
    have other : p ≠ o := by
      rintro rfl
      rw [show (s.operations p).body = _ from pbody] at body
      cases body
    exact h.pending plt pbody (by simpa [State.settle, Chain.settle, update_of_ne other] using unsettled)

theorem wired_settleJoin {s : State K V} (h : Wired s) {o c : Nat} (lt : o < s.chain.next)
    (running : s.chain.status o = .running) (body : (s.operations o).body = .join c)
    (result : OperationResult) : Wired (s.settleJoin o c result) where
  chain := Chain.settle_wellFormed h.chain lt (by rw [running]; decide)
  lane_item := h.lane_item
  join_body := by
    intro p d plt pbody
    obtain ⟨dlt, key⟩ := h.join_body plt pbody
    refine ⟨dlt, key.trans ?_⟩
    by_cases same : d = c
    · subst d
      simp [State.settleJoin, State.setPhase, State.settle]
    · simp [State.settleJoin, State.setPhase, State.settle, update_of_ne same]
  expire_body := h.expire_body
  arm_item := h.arm_item
  stored := ⟨h.stored.current_item, h.stored.previous_item, h.stored.one_generation⟩
  awaiting := by
    intro d p dlt phase
    by_cases same : d = c
    · subst d
      simp [State.settleJoin, State.setPhase, State.settle] at phase
    · have old : (s.calls d).phase = .awaiting p := by
        simpa [State.settleJoin, State.setPhase, State.settle, update_of_ne same] using phase
      obtain ⟨plt, pbody, unsettled⟩ := h.awaiting dlt old
      have other : p ≠ o := by
        rintro rfl
        rw [body] at pbody
        exact same (Body.join.inj pbody).symm
      refine ⟨plt, pbody, ?_⟩
      simpa [State.settleJoin, State.setPhase, State.settle, Chain.settle, update_of_ne other]
        using unsettled
  pending := by
    intro p d plt pbody unsettled
    have other : p ≠ o := by
      rintro rfl
      simp [State.settleJoin, State.setPhase, State.settle, Chain.settle] at unsettled
    have old := h.pending plt pbody (by
      simpa [State.settleJoin, State.setPhase, State.settle, Chain.settle, update_of_ne other]
        using unsettled)
    have same : d ≠ c := by
      rintro rfl
      have := h.pending lt body (by rw [running]; decide)
      rw [old] at this
      exact other (Phase.awaiting.inj this)
    simpa [State.settleJoin, State.setPhase, State.settle, update_of_ne same] using old

theorem no_pending {s : State K V} (h : Wired s) {c o : Nat}
    (idle : ∀ p, (s.calls c).phase ≠ .awaiting p) (lt : o < s.chain.next)
    (body : (s.operations o).body = .join c) : s.chain.status o = .settled := by
  by_contra unsettled
  exact idle o (h.pending lt body unsettled)

theorem wired_setPhase {s : State K V} (h : Wired s) {c : Nat} {phase : Phase}
    (idle : ∀ p, (s.calls c).phase ≠ .awaiting p) (quiet : ∀ p, phase ≠ .awaiting p) :
    Wired (s.setPhase c phase) where
  chain := h.chain
  lane_item := h.lane_item
  join_body := by
    intro o d lt body
    obtain ⟨dlt, key⟩ := h.join_body lt body
    refine ⟨dlt, key.trans ?_⟩
    by_cases same : d = c
    · subst d
      simp [State.setPhase]
    · simp [State.setPhase, update_of_ne same]
  expire_body := h.expire_body
  arm_item := h.arm_item
  stored := ⟨h.stored.current_item, h.stored.previous_item, h.stored.one_generation⟩
  awaiting := by
    intro d o lt await
    by_cases same : d = c
    · subst d
      simp only [State.setPhase, update_self] at await
      exact absurd await (quiet o)
    · simp only [State.setPhase, update_of_ne same] at await
      exact h.awaiting lt await
  pending := by
    intro o d lt body unsettled
    have same : d ≠ c := by
      rintro rfl
      exact unsettled (no_pending h idle lt body)
    simpa only [State.setPhase, update_of_ne same] using h.pending lt body unsettled

theorem wired_leave {s : State K V} (h : Wired s) {c : Nat} {phase : Phase}
    (idle : ∀ p, (s.calls c).phase ≠ .awaiting p) (quiet : ∀ p, phase ≠ .awaiting p) :
    Wired (s.leave c phase) := by
  have settled := wired_setPhase h idle quiet
  unfold State.leave
  split
  · exact wired_same settled rfl rfl rfl
  · exact settled

theorem wired_enterCall {s : State K V} (h : Wired s) (context : Context) (key : K) (slot : Nat)
    (value : V) (phase : Phase) (quiet : ∀ p, phase ≠ .awaiting p) :
    Wired (s.enterCall context key slot value phase) where
  chain := h.chain
  lane_item := h.lane_item
  join_body := by
    intro o c lt body
    obtain ⟨clt, named⟩ := h.join_body lt body
    have other : c ≠ s.nextCall := Nat.ne_of_lt clt
    refine ⟨Nat.lt_succ_of_lt clt, ?_⟩
    simpa [State.enterCall, update_of_ne other] using named
  expire_body := h.expire_body
  arm_item := h.arm_item
  stored := ⟨h.stored.current_item, h.stored.previous_item, h.stored.one_generation⟩
  awaiting := by
    intro c o lt await
    by_cases same : c = s.nextCall
    · subst c
      simp only [State.enterCall, update_self] at await
      exact absurd await (quiet o)
    · simp only [State.enterCall, update_of_ne same] at await
      have old : c < s.nextCall := Nat.lt_of_le_of_ne (Nat.le_of_lt_succ lt) same
      exact h.awaiting old await
  pending := by
    intro o c lt body unsettled
    have other : c ≠ s.nextCall := Nat.ne_of_lt (h.join_body lt body).1
    simpa only [State.enterCall, update_of_ne other] using h.pending lt body unsettled

theorem stored_insertItem {s : State K V} (h : Stored s) (c : Nat) : Stored (s.insertItem c) where
  current_item := by
    intro k i get
    simp only [State.insertItem, OrderedMap.get_set] at get
    split at get
    · rename_i same
      subst k
      cases get
      exact ⟨Nat.lt_succ_self _, by simp [State.insertItem, State.newItem]⟩
    · obtain ⟨lt, key⟩ := h.current_item get
      refine ⟨Nat.lt_succ_of_lt lt, ?_⟩
      simpa [State.insertItem, update_of_ne (Nat.ne_of_lt lt)] using key
  previous_item := by
    intro k i get
    simp only [State.insertItem, OrderedMap.get_delete] at get
    split at get
    · cases get
    · obtain ⟨lt, key⟩ := h.previous_item get
      refine ⟨Nat.lt_succ_of_lt lt, ?_⟩
      simpa [State.insertItem, update_of_ne (Nat.ne_of_lt lt)] using key
  one_generation := by
    intro k i get
    simp only [State.insertItem, OrderedMap.get_set, OrderedMap.get_delete] at get ⊢
    split
    · rfl
    · rename_i other
      rw [if_neg other] at get
      exact h.one_generation get

theorem wired_insertItem {s : State K V} (h : Wired s) (c : Nat) : Wired (s.insertItem c) where
  chain := h.chain
  lane_item := fun lt => Nat.lt_succ_of_lt (h.lane_item lt)
  join_body := by
    intro o d lt body
    have other := Nat.ne_of_lt (h.lane_item lt)
    simpa [State.insertItem, update_of_ne other] using h.join_body lt body
  expire_body := h.expire_body
  arm_item := by
    intro a lt
    obtain ⟨ilt, key⟩ := h.arm_item lt
    refine ⟨Nat.lt_succ_of_lt ilt, ?_⟩
    simpa [State.insertItem, update_of_ne (Nat.ne_of_lt ilt)] using key
  stored := stored_insertItem h.stored c
  awaiting := h.awaiting
  pending := h.pending

theorem wired_createItem {s : State K V} (h : Wired s) (c : Nat) : Wired (s.createItem c) := by
  have inserted := wired_insertItem h c
  unfold State.createItem
  split
  · apply wired_armsOnly inserted
    apply armDeadline_armsOnly
    · exact Nat.lt_succ_self _
    · simp [State.insertItem, State.newItem]
  · exact inserted

theorem wired_joinItem {s : State K V} (h : Wired s) {c i : Nat} (clt : c < s.nextCall)
    (ilt : i < s.nextItem) (named : (s.items i).key = (s.calls c).key)
    (idle : ∀ p, (s.calls c).phase ≠ .awaiting p) : Wired (s.joinItem c i) where
  chain := Chain.attach_wellFormed h.chain i
  lane_item := by
    intro o lt
    by_cases new : o = s.chain.next
    · subst o
      simpa [State.joinItem, State.enqueue, Chain.attach] using ilt
    · simp only [State.joinItem, State.enqueue, Chain.attach, update_of_ne new]
      exact h.lane_item (Nat.lt_of_le_of_ne (Nat.le_of_lt_succ lt) new)
  join_body := by
    intro o d lt body
    have keys : ((s.joinItem c i).calls d).key = (s.calls d).key := by
      by_cases same : d = c
      · subst d
        simp [State.joinItem, State.enqueue]
      · simp [State.joinItem, State.enqueue, update_of_ne same]
    rw [keys]
    by_cases new : o = s.chain.next
    · subst o
      simp only [State.joinItem, State.enqueue, Chain.attach, update_self] at body ⊢
      cases body
      exact ⟨clt, named⟩
    · simp only [State.joinItem, State.enqueue, Chain.attach, update_of_ne new] at body ⊢
      exact h.join_body (Nat.lt_of_le_of_ne (Nat.le_of_lt_succ lt) new) body
  expire_body := by
    intro o a lt body
    by_cases new : o = s.chain.next
    · subst o
      simp [State.joinItem, State.enqueue] at body
    · simp only [State.joinItem, State.enqueue, Chain.attach, update_of_ne new] at body ⊢
      exact h.expire_body (Nat.lt_of_le_of_ne (Nat.le_of_lt_succ lt) new) body
  arm_item := h.arm_item
  stored := ⟨h.stored.current_item, h.stored.previous_item, h.stored.one_generation⟩
  awaiting := by
    intro d o lt await
    by_cases same : d = c
    · subst d
      simp only [State.joinItem, State.enqueue, update_self] at await
      cases await
      simp [State.joinItem, State.enqueue, Chain.attach]
    · simp only [State.joinItem, State.enqueue, update_of_ne same] at await
      obtain ⟨olt, body, unsettled⟩ := h.awaiting lt await
      have old : o ≠ s.chain.next := Nat.ne_of_lt olt
      simp only [State.joinItem, State.enqueue, Chain.attach, update_of_ne old]
      exact ⟨Nat.lt_succ_of_lt olt, body, unsettled⟩
  pending := by
    intro o d lt body unsettled
    by_cases new : o = s.chain.next
    · subst o
      simp only [State.joinItem, State.enqueue, update_self] at body ⊢
      cases body
      simp
    · simp only [State.joinItem, State.enqueue, Chain.attach, update_of_ne new] at body unsettled
      have olt : o < s.chain.next := Nat.lt_of_le_of_ne (Nat.le_of_lt_succ lt) new
      have same : d ≠ c := by
        rintro rfl
        exact unsettled (no_pending h idle olt body)
      simpa only [State.joinItem, State.enqueue, update_of_ne same] using h.pending olt body unsettled

theorem findLive_stored {s : State K V} (h : Stored s) {k : K} {i : Nat}
    (found : s.findLive k = some i) : i < s.nextItem ∧ (s.items i).key = k := by
  unfold State.findLive at found
  split at found
  · rename_i item get
    split at found
    · cases found
    · cases found
      exact h.current_item get
  · split at found
    · rename_i item get
      split at found
      · cases found
      · cases found
        exact h.previous_item get
    · cases found

theorem wired_iterate {s : State K V} (h : Wired s) {c : Nat} (clt : c < s.nextCall)
    (idle : ∀ p, (s.calls c).phase ≠ .awaiting p) : Wired (s.iterate c) := by
  unfold State.iterate
  split
  · rename_i item found
    obtain ⟨ilt, named⟩ := findLive_stored h.stored found
    exact wired_joinItem h clt ilt named idle
  · split
    · exact wired_leave h idle (by simp)
    · obtain ⟨calls, nextCall, nextItem, named⟩ := createItem_new s c
      apply wired_joinItem (wired_createItem h c)
      · exact nextCall ▸ clt
      · omega
      · rw [named, calls]
      · rw [calls]
        exact idle

theorem stored_removeAt {s : State K V} (h : Stored s) (k : K) (i : Nat) (location : Location)
    (evict : Bool) : Stored (s.removeAt k i location evict) := by
  unfold State.removeAt
  split
  · cases location with
    | current =>
      constructor
      · intro j p get
        simp only [↓reduceIte, OrderedMap.get_delete] at get
        split at get
        · cases get
        · exact h.current_item get
      · intro j p get
        exact h.previous_item (by simpa using get)
      · intro j p get
        simp only [↓reduceIte, OrderedMap.get_delete] at get
        split at get
        · cases get
        · simpa using h.one_generation get
    | previous =>
      constructor
      · intro j p get
        exact h.current_item (by simpa using get)
      · intro j p get
        simp only [↓reduceIte, OrderedMap.get_delete] at get
        split at get
        · cases get
        · exact h.previous_item get
      · intro j p get
        have none := h.one_generation (k := j) (i := p) (by simpa using get)
        simp [OrderedMap.get_delete, none]
  · exact h

theorem wired_removeAt {s : State K V} (h : Wired s) (k : K) (i : Nat) (location : Location)
    (evict : Bool) : Wired (s.removeAt k i location evict) := by
  have stored := stored_removeAt h.stored k i location evict
  unfold State.removeAt at stored ⊢
  split
  · rename_i present
    rw [if_pos present] at stored
    exact wired_stored h stored (fun _ => rfl) rfl rfl rfl (fun _ => rfl) rfl rfl rfl
  · exact h

theorem locate_item {s : State K V} (h : Stored s) {k : K} {i : Nat} {location : Location}
    (located : s.locate k i = some location) : i < s.nextItem ∧ (s.items i).key = k := by
  cases location with
  | current => exact h.current_item (locate_current located)
  | previous => exact h.previous_item (locate_previous located)

theorem stored_republish {s : State K V} (h : Stored s) {c i : Nat} {location : Location}
    (located : s.locate (s.calls c).key i = some location) :
    Stored (s.republish c i location) := by
  have keys : ∀ j, ((s.republish c i location).items j).key = (s.items j).key :=
    update_key _ rfl
  obtain ⟨ilt, named⟩ := locate_item h located
  constructor
  · intro k j get
    rw [keys]
    simp only [State.republish, OrderedMap.get_set] at get
    split at get
    · rename_i same
      cases get
      exact ⟨ilt, named.trans same.symm⟩
    · exact h.current_item get
  · intro k j get
    rw [keys]
    simp only [State.republish] at get
    split at get
    · rw [OrderedMap.get_delete] at get
      split at get
      · cases get
      · exact h.previous_item get
    · exact h.previous_item get
  · intro k j get
    simp only [State.republish, OrderedMap.get_set] at get ⊢
    cases location with
    | current =>
      split at get
      · rename_i same
        rw [same]
        simpa using h.one_generation (locate_current located)
      · simpa using h.one_generation get
    | previous =>
      simp only [↓reduceIte, OrderedMap.get_delete]
      split at get
      · rename_i same
        rw [if_pos same]
      · rename_i other
        rw [if_neg other]
        exact h.one_generation get

theorem wired_renew {s : State K V} (h : Wired s) {c i : Nat} {location : Location}
    (located : s.locate (s.calls c).key i = some location) : Wired (s.renew c i location) := by
  obtain ⟨ilt, named⟩ := locate_item h.stored located
  have keys : ∀ j, ((s.republish c i location).items j).key = (s.items j).key := update_key _ rfl
  have moved : Wired (s.republish c i location) :=
    wired_stored h (stored_republish h.stored located) keys rfl rfl rfl (fun _ => rfl) rfl rfl rfl
  have cancelled := cancelDeadline_armsOnly (s.republish c i location) i
  apply wired_armsOnly (wired_armsOnly moved cancelled)
  apply armDeadline_armsOnly
  · exact ilt
  · rw [cancelled.key, keys, named]

theorem stored_swapGenerations {s : State K V} (h : Stored s) : Stored s.swapGenerations where
  current_item := by
    intro k i get
    simp [State.swapGenerations] at get
  previous_item := by
    intro k i get
    simp only [State.swapGenerations, rescued_get] at get
    cases cur : s.current.get k with
    | some j =>
      rw [cur] at get
      cases get
      exact h.current_item cur
    | none =>
      rw [cur] at get
      exact h.previous_item get
  one_generation := by
    intro k i get
    simp [State.swapGenerations] at get

theorem wired_rotate {s : State K V} (h : Wired s) : Wired s.rotate := by
  unfold State.rotate
  split
  · exact wired_stored h (stored_swapGenerations h.stored) (fun _ => rfl) rfl rfl rfl (fun _ => rfl) rfl rfl rfl
  · exact wired_same h rfl rfl rfl

theorem wired_startJoin {s : State K V} (h : Wired s) {o c : Nat} (ready : s.chain.ready o = true)
    (body : (s.operations o).body = .join c) (i : Nat) : Wired (s.startJoin o c i) := by
  have begun := wired_begin h ready
  have lt := ((Chain.ready_iff _ _).mp ready).1
  have running : (s.begin o).chain.status o = .running := update_self ..
  unfold State.startJoin
  split
  · exact wired_settleJoin begun lt running body _
  · split
    · exact wired_settleJoin (wired_setValues begun _ _) lt running body _
    · exact wired_record (wired_record (wired_setStage (wired_setValues begun _ _) _ _) _) _

theorem wired_startExpire {s : State K V} (h : Wired s) {o a : Nat} (ready : s.chain.ready o = true)
    (body : (s.operations o).body = .expire a) : Wired (s.startExpire o a (s.chain.lane o)) := by
  have begun := wired_begin h ready
  have lt := ((Chain.ready_iff _ _).mp ready).1
  have running : (s.begin o).chain.status o = .running := update_self ..
  obtain ⟨alt, item⟩ := h.expire_body lt body
  obtain ⟨ilt, named⟩ := h.arm_item alt
  unfold State.startExpire
  split
  · exact wired_settle begun lt running body
  · split
    · have only : ArmsOnly (s.begin o) ((s.begin o).rearm a (s.chain.lane o)) :=
        armsOnly_trans (cancelDeadline_armsOnly _ _)
          (armDeadline_armsOnly _ _ (item ▸ ilt) (item ▸ named))
      refine wired_settle (a := a) (wired_armsOnly begun only) ?_ ?_ ?_
      · exact Nat.lt_of_lt_of_le lt only.next_le
      · rw [only.status lt, running]
      · rw [only.operation lt]
        exact body
    · exact wired_record (wired_setStage (wired_setProcessed begun _ _) _ _) _

theorem wired_concludeJoin {s : State K V} (h : Wired s) {c i : Nat} (processed : Bool) :
    Wired (s.concludeJoin c i processed) := by
  unfold State.concludeJoin
  split
  · exact h
  · rename_i location located
    split
    · exact wired_removeAt (wired_armsOnly h (cancelDeadline_armsOnly _ i)) _ _ _ _
    · split
      · exact wired_renew h located
      · exact h

theorem wired_continueJoin {s : State K V} (h : Wired s) {o c : Nat} (lt : o < s.chain.next)
    (running : s.chain.status o = .running) (body : (s.operations o).body = .join c)
    (processed : Bool) : Wired (s.continueJoin o c (s.chain.lane o) processed) := by
  have marked := wired_setProcessed h (s.chain.lane o) processed
  have named : ((s.setProcessed (s.chain.lane o) processed).items (s.chain.lane o)).key =
      (s.calls c).key := by
    simpa [State.setProcessed, State.setItem] using (h.join_body lt body).2
  have keeps := concludeJoin_keepsOperations (s := s.setProcessed (s.chain.lane o) processed)
    (h.lane_item lt) named processed
  refine wired_settleJoin (wired_concludeJoin marked processed) ?_ ?_ ?_ _
  · exact Nat.lt_of_lt_of_le lt keeps.next_le
  · exact (keeps.status lt).trans running
  · rw [keeps.operation lt]
    exact body

theorem wired_continueExpire {s : State K V} (h : Wired s) {o a : Nat} (lt : o < s.chain.next)
    (running : s.chain.status o = .running) (body : (s.operations o).body = .expire a) (i : Nat) :
    Wired (s.continueExpire o a i) := by
  unfold State.continueExpire State.concludeExpire
  split
  · exact wired_settle h lt running body
  · rename_i location _
    have same := removeAt_same s (s.arms a).key i location true
    refine wired_settle (a := a) (wired_removeAt h _ _ _ _) ?_ ?_ ?_
    · rw [same.2.1]
      exact lt
    · rw [same.2.1]
      exact running
    · rw [same.1]
      exact body

theorem wired_active {s : State K V} (h : Wired s) (active : Int) :
    Wired (s.setActive active) :=
  wired_same h rfl rfl rfl

theorem wired_joinValue {s : State K V} (h : Wired s) (context : Context) (key : K)
    (index : Number) (value : V) : Wired (s.joinValue context key index value) := by
  rcases joinValue_cases s context key index value with eq | ⟨slot, _, eq | ⟨active, eq⟩⟩
  · rw [eq]
    exact wired_enterCall h _ _ _ _ _ (by simp)
  · rw [eq]
    exact wired_enterCall h _ _ _ _ _ (by simp)
  · rw [eq]
    have entered := wired_enterCall h context key slot value .entering (by simp)
    refine wired_iterate (wired_active entered active) (Nat.lt_succ_self _) ?_
    simp [State.enterCall, State.setActive]

theorem wired_fire {s t : State K V} (h : Wired s) {a : Nat} (next : s.fire a = some t) : Wired t := by
  obtain ⟨lt, _, rfl⟩ := fire_cases next
  exact wired_armsOnly h (armsOnly_trans (disarm_armsOnly s a) (expire_armsOnly (s.disarm a) lt))

theorem wired_start {s : State K V} (h : Wired s) : Wired s.start := by
  unfold State.start
  split
  · exact h
  · exact wired_same h rfl rfl rfl

theorem wired_stop {s : State K V} (h : Wired s) : Wired s.stop := by
  unfold State.stop
  split
  · exact h
  · exact wired_same h rfl rfl rfl

theorem wired_step {s t : State K V} {a : Action K V} (h : Wired s) (next : step s a = some t) :
    Wired t := by
  cases a with
  | joinValue context key index value =>
    cases next
    exact wired_joinValue h context key index value
  | enter c =>
    obtain ⟨lt, entering, _, rfl⟩ := enter_cases next
    exact wired_iterate (wired_active h _) lt (by simp [State.setActive, entering])
  | startOperation o =>
    obtain ⟨ready, ⟨c, body, rfl⟩ | ⟨b, body, rfl⟩⟩ := startOperation_cases next
    · exact wired_startJoin h ready body _
    · exact wired_startExpire h ready body
  | callbackReturns o outcome =>
    obtain ⟨_, _, _, ⟨c, _, rfl⟩ | ⟨b, _, rfl⟩⟩ := callbackReturns_cases next
    · exact wired_record (wired_setStage h _ _) _
    · exact wired_record (wired_setStage h _ _) _
  | continueOperation o =>
    obtain ⟨lt, running, ⟨c, processed, body, _, rfl⟩ | ⟨c, body, _, rfl⟩ | ⟨b, _, body, _, rfl⟩⟩ :=
      continueOperation_cases next
    · exact wired_continueJoin h lt running body processed
    · exact wired_settleJoin h lt running body _
    · exact wired_continueExpire h lt running body _
  | resume c =>
    obtain ⟨lt, ⟨phase, rfl⟩ | ⟨phase, rfl⟩ | ⟨error, phase, rfl⟩⟩ := resume_cases next
    · exact wired_leave h (by simp [phase]) (by simp)
    · exact wired_iterate h lt (by simp [phase])
    · exact wired_leave h (by simp [phase]) (by simp)
  | fire b => exact wired_fire h next
  | abort signal =>
    cases next
    exact wired_same h rfl rfl rfl
  | clock now contextNow =>
    cases next
    exact wired_same h rfl rfl rfl
  | configure ttlMs renewTTL =>
    cases next
    exact wired_same h rfl rfl rfl
  | start =>
    cases next
    exact wired_start h
  | stop =>
    cases next
    exact wired_stop h
  | rotationTimer =>
    simp only [step] at next
    split at next
    · cases next
      exact wired_same (wired_rotate h) rfl rfl rfl
    · cases next

theorem wired_initial [Inhabited K] [Inhabited V] {s : State K V} (h : Initial s) : Wired s := by
  obtain ⟨_, _, _, _, _, _, rfl⟩ := h
  constructor
  · exact Chain.empty_wellFormed 0
  · intro o lt
    simp [initial, Chain.empty] at lt
  · intro o c lt
    simp [initial, Chain.empty] at lt
  · intro o a lt
    simp [initial, Chain.empty] at lt
  · intro a lt
    simp [initial] at lt
  · constructor <;> simp [initial]
  · intro c o lt
    simp [initial] at lt
  · intro o c lt
    simp [initial, Chain.empty] at lt

end JoinStorage
