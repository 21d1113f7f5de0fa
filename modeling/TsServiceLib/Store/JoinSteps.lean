import TsServiceLib.Store.JoinStorage

/-!
What the pieces of the join storage can do, said once. The expiry machinery is
one relation between states, the other pieces are described by what they leave
alone, and each action by when it is enabled and which piece it then runs. The
invariants of the storage are proved from these facts.
-/
namespace JoinStorage
open OrderedMaps TailChain Numbers Function
variable {K V : Type}

/-- Everything the storage allocates. -/
def State.objects (s : State K V) :=
  (s.operations, s.chain, s.items, s.nextItem, s.arms, s.nextArm, s.calls, s.nextCall)

theorem objects_same {s t : State K V} (same : t.objects = s.objects) :
    t.operations = s.operations ∧ t.chain = s.chain ∧ t.items = s.items ∧ t.nextItem = s.nextItem ∧
      t.arms = s.arms ∧ t.nextArm = s.nextArm ∧ t.calls = s.calls ∧ t.nextCall = s.nextCall := by
  simpa only [State.objects, Prod.mk.injEq] using same

theorem bodies_apart {s : State K V} {o p : Nat} {b b' : Body} (here : (s.operations o).body = b)
    (there : (s.operations p).body = b') (differ : b' ≠ b) : p ≠ o := by
  intro same
  rw [same, here] at there
  exact differ there.symm

/-- The objects but the calls. -/
def State.workings (s : State K V) := (s.operations, s.chain, s.items, s.nextItem, s.arms, s.nextArm)

theorem workings_same {s t : State K V} (same : t.workings = s.workings) :
    t.operations = s.operations ∧ t.chain = s.chain ∧ t.items = s.items ∧ t.nextItem = s.nextItem ∧
      t.arms = s.arms ∧ t.nextArm = s.nextArm := by
  simpa only [State.workings, Prod.mk.injEq] using same

theorem objects_workings {s t : State K V} (same : t.objects = s.objects) : t.workings = s.workings := by
  obtain ⟨operations, chain, items, nextItem, arms, nextArm, -, -⟩ := objects_same same
  simp only [State.workings, operations, chain, items, nextItem, arms, nextArm]

/- All that `cancelDeadline`, `expire` and `armDeadline` can do: retire and add
   registrations, and attach expiry operations. Groups, calls and the history
   stay as they are. -/
structure ArmsOnly (s t : State K V) : Prop where
  current : t.current = s.current
  previous : t.previous = s.previous
  nextItem : t.nextItem = s.nextItem
  calls : t.calls = s.calls
  nextCall : t.nextCall = s.nextCall
  aborted : t.aborted = s.aborted
  now : t.now = s.now
  stopCompletion : t.stopCompletion = s.stopCompletion
  history : t.history = s.history
  item : ∀ i, ∃ cancel, t.items i = { s.items i with cancelDeadline := cancel }
  next_le : s.chain.next ≤ t.chain.next
  lane : ∀ {o}, o < s.chain.next → t.chain.lane o = s.chain.lane o
  status : ∀ {o}, o < s.chain.next → t.chain.status o = s.chain.status o
  operation : ∀ {o}, o < s.chain.next → t.operations o = s.operations o
  fresh : ∀ {o}, s.chain.next ≤ o → o < t.chain.next → t.chain.status o = .waiting ∧
    ∃ a, t.operations o = ⟨.expire a, .idle⟩ ∧ a < t.nextArm ∧ (t.arms a).item = t.chain.lane o
  chain : s.chain.WellFormed → t.chain.WellFormed
  nextArm_le : s.nextArm ≤ t.nextArm
  arm : ∀ {a}, a < s.nextArm → (t.arms a).context = (s.arms a).context ∧
    (t.arms a).key = (s.arms a).key ∧ (t.arms a).item = (s.arms a).item
  new_arm : ∀ {a}, s.nextArm ≤ a → a < t.nextArm →
    (t.arms a).item < s.nextItem ∧ (s.items (t.arms a).item).key = (t.arms a).key

theorem armsOnly_refl (s : State K V) : ArmsOnly s s where
  current := rfl
  previous := rfl
  nextItem := rfl
  calls := rfl
  nextCall := rfl
  aborted := rfl
  now := rfl
  stopCompletion := rfl
  history := rfl
  item := fun i => ⟨(s.items i).cancelDeadline, rfl⟩
  next_le := Nat.le_refl _
  lane := fun _ => rfl
  status := fun _ => rfl
  operation := fun _ => rfl
  fresh := fun lo hi => absurd hi (Nat.not_lt.mpr lo)
  chain := id
  nextArm_le := Nat.le_refl _
  arm := fun _ => ⟨rfl, rfl, rfl⟩
  new_arm := fun lo hi => absurd hi (Nat.not_lt.mpr lo)

theorem ArmsOnly.key {s t : State K V} (h : ArmsOnly s t) (i : Nat) :
    (t.items i).key = (s.items i).key := by
  obtain ⟨cancel, eq⟩ := h.item i
  rw [eq]

theorem armsOnly_trans {s t u : State K V} (st : ArmsOnly s t) (tu : ArmsOnly t u) :
    ArmsOnly s u where
  current := tu.current.trans st.current
  previous := tu.previous.trans st.previous
  nextItem := tu.nextItem.trans st.nextItem
  calls := tu.calls.trans st.calls
  nextCall := tu.nextCall.trans st.nextCall
  aborted := tu.aborted.trans st.aborted
  now := tu.now.trans st.now
  stopCompletion := tu.stopCompletion.trans st.stopCompletion
  history := tu.history.trans st.history
  item := by
    intro i
    obtain ⟨a, ha⟩ := st.item i
    obtain ⟨b, hb⟩ := tu.item i
    exact ⟨b, by rw [hb, ha]⟩
  next_le := Nat.le_trans st.next_le tu.next_le
  lane := fun lt => (tu.lane (Nat.lt_of_lt_of_le lt st.next_le)).trans (st.lane lt)
  status := fun lt => (tu.status (Nat.lt_of_lt_of_le lt st.next_le)).trans (st.status lt)
  operation := fun lt => (tu.operation (Nat.lt_of_lt_of_le lt st.next_le)).trans (st.operation lt)
  fresh := by
    intro o lo hi
    by_cases old : o < t.chain.next
    · obtain ⟨waiting, a, op, alt, aitem⟩ := st.fresh lo old
      rw [tu.status old, tu.operation old, tu.lane old]
      exact ⟨waiting, a, op, Nat.lt_of_lt_of_le alt tu.nextArm_le, by rw [(tu.arm alt).2.2, aitem]⟩
    · exact tu.fresh (by omega) hi
  chain := fun wf => tu.chain (st.chain wf)
  nextArm_le := Nat.le_trans st.nextArm_le tu.nextArm_le
  arm := by
    intro a lt
    have first := st.arm lt
    have second := tu.arm (Nat.lt_of_lt_of_le lt st.nextArm_le)
    exact ⟨second.1.trans first.1, second.2.1.trans first.2.1, second.2.2.trans first.2.2⟩
  new_arm := by
    intro a lo hi
    by_cases old : a < t.nextArm
    · have first := st.new_arm lo old
      have second := tu.arm old
      rw [second.2.2, second.2.1]
      exact first
    · have second := tu.new_arm (by omega) hi
      rw [st.nextItem, st.key] at second
      exact second

/-- The operations that exist stay as they are; new ones may be attached. -/
structure KeepsOperations (s t : State K V) : Prop where
  next_le : s.chain.next ≤ t.chain.next
  lane : ∀ {o}, o < s.chain.next → t.chain.lane o = s.chain.lane o
  status : ∀ {o}, o < s.chain.next → t.chain.status o = s.chain.status o
  operation : ∀ {o}, o < s.chain.next → t.operations o = s.operations o

theorem keepsOperations_same {s t : State K V} (operations : t.operations = s.operations)
    (chain : t.chain = s.chain) : KeepsOperations s t where
  next_le := by rw [chain]
  lane := by intros; rw [chain]
  status := by intros; rw [chain]
  operation := by intros; rw [operations]

theorem keepsOperations_armsOnly {s t : State K V} (only : ArmsOnly s t) : KeepsOperations s t :=
  ⟨only.next_le, only.lane, only.status, only.operation⟩

theorem keepsOperations_trans {s t u : State K V} (st : KeepsOperations s t)
    (tu : KeepsOperations t u) : KeepsOperations s u where
  next_le := Nat.le_trans st.next_le tu.next_le
  lane := fun lt => (tu.lane (Nat.lt_of_lt_of_le lt st.next_le)).trans (st.lane lt)
  status := fun lt => (tu.status (Nat.lt_of_lt_of_le lt st.next_le)).trans (st.status lt)
  operation := fun lt => (tu.operation (Nat.lt_of_lt_of_le lt st.next_le)).trans (st.operation lt)

theorem cancelledArms_same (s : State K V) (i a : Nat) :
    (s.cancelledArms i a).context = (s.arms a).context ∧
      (s.cancelledArms i a).key = (s.arms a).key ∧ (s.cancelledArms i a).item = (s.arms a).item := by
  unfold State.cancelledArms
  cases (s.items i).cancelDeadline with
  | none => exact ⟨rfl, rfl, rfl⟩
  | some arm =>
    by_cases retired : (s.arms arm).retired = true
    · simp [retired]
    · by_cases same : a = arm
      · subst a
        simp [retired]
      · simp [retired, update_of_ne same]

theorem cancelDeadline_armsOnly (s : State K V) (i : Nat) : ArmsOnly s (s.cancelDeadline i) :=
  { armsOnly_refl s with
    arm := fun _ => cancelledArms_same s i _
    new_arm := fun lo hi => absurd hi (Nat.not_lt.mpr lo)
    fresh := fun lo hi => absurd hi (Nat.not_lt.mpr lo) }

theorem disarm_armsOnly (s : State K V) (a : Nat) : ArmsOnly s (s.disarm a) :=
  { armsOnly_refl s with
    arm := by
      intro b _
      by_cases same : b = a
      · subst b
        simp [State.disarm]
      · simp [State.disarm, update_of_ne same]
    fresh := fun lo hi => absurd hi (Nat.not_lt.mpr lo)
    new_arm := fun lo hi => absurd hi (Nat.not_lt.mpr lo) }

theorem enqueue_expire_armsOnly (s : State K V) {a : Nat} (lt : a < s.nextArm) :
    ArmsOnly s (s.enqueue (s.arms a).item (.expire a)) :=
  { armsOnly_refl s with
    next_le := Nat.le_succ _
    lane := fun lt => update_of_ne (Nat.ne_of_lt lt) _ _
    status := fun lt => update_of_ne (Nat.ne_of_lt lt) _ _
    operation := fun lt => update_of_ne (Nat.ne_of_lt lt) _ _
    fresh := by
      intro o lo hi
      have new : o = s.chain.next := Nat.le_antisymm (Nat.le_of_lt_succ hi) lo
      subst o
      exact ⟨update_self .., a, update_self .., lt, (update_self s.chain.next _ s.chain.lane).symm⟩
    chain := fun wf => Chain.attach_wellFormed wf _ }

theorem expire_armsOnly (s : State K V) {a : Nat} (lt : a < s.nextArm) :
    ArmsOnly s (s.expire a) := by
  unfold State.expire
  split
  · exact armsOnly_refl s
  · have cancelled := cancelDeadline_armsOnly s (s.arms a).item
    have item := (cancelled.arm lt).2.2
    have queued := enqueue_expire_armsOnly (s.cancelDeadline (s.arms a).item) lt
    rw [item] at queued
    exact armsOnly_trans cancelled queued

theorem register_armsOnly (s : State K V) (context : Context) {key : K} {i : Nat}
    (lt : i < s.nextItem) (named : (s.items i).key = key) :
    ArmsOnly s (s.register context key i) :=
  { armsOnly_refl s with
    item := by
      intro j
      by_cases same : j = i
      · subst j
        exact ⟨some s.nextArm, update_self ..⟩
      · exact ⟨(s.items j).cancelDeadline, update_of_ne same ..⟩
    fresh := fun lo hi => absurd hi (Nat.not_lt.mpr lo)
    nextArm_le := Nat.le_succ _
    arm := by
      intro a old
      have other : a ≠ s.nextArm := Nat.ne_of_lt old
      simp [State.register, update_of_ne other]
    new_arm := by
      intro a lo hi
      have new : a = s.nextArm := Nat.le_antisymm (Nat.le_of_lt_succ hi) lo
      subst a
      simpa [State.register] using ⟨lt, named⟩ }

theorem armDeadline_armsOnly (s : State K V) (context : Context) {key : K} {i : Nat}
    (lt : i < s.nextItem) (named : (s.items i).key = key) :
    ArmsOnly s (s.armDeadline context key i) := by
  have registered := register_armsOnly s context lt named
  unfold State.armDeadline
  split
  · exact armsOnly_trans registered (expire_armsOnly _ (Nat.lt_succ_self _))
  · exact registered

/- What each action needs to be enabled, and the piece of code it runs. -/

theorem callbackReturns_cases {s t : State K V} {o : Nat} {outcome : CallbackOutcome}
    (next : s.callbackReturns o outcome = some t) :
    o < s.chain.next ∧ s.chain.status o = .running ∧ (s.operations o).stage = .inCallback ∧
      ((∃ c, (s.operations o).body = .join c ∧ t = (s.setStage o (.returned outcome)).record
          (.joinReturned o (s.chain.lane o) outcome)) ∨
        ∃ a, (s.operations o).body = .expire a ∧ t = (s.setStage o (.returned outcome)).record
          (.deadlineReturned o (s.chain.lane o) outcome)) := by
  unfold State.callbackReturns at next
  split at next
  · rename_i enabled
    refine ⟨enabled.1, enabled.2.1, enabled.2.2, ?_⟩
    split at next
    · rename_i c body
      exact Or.inl ⟨c, body, (Option.some.inj next).symm⟩
    · rename_i a body
      exact Or.inr ⟨a, body, (Option.some.inj next).symm⟩
  · cases next

theorem fire_cases {s t : State K V} {a : Nat} (next : s.fire a = some t) :
    a < s.nextArm ∧ (s.arms a).armed = true ∧
      t = (s.disarm a).expire a := by
  unfold State.fire at next
  split at next
  · rename_i enabled
    exact ⟨enabled.1, enabled.2.1, (Option.some.inj next).symm⟩
  · cases next

variable [DecidableEq K]

theorem locate_current {s : State K V} {k : K} {i : Nat}
    (located : s.locate k i = some .current) : s.current.get k = some i := by
  unfold State.locate at located
  split at located
  · assumption
  · split at located <;> simp at located

theorem locate_previous {s : State K V} {k : K} {i : Nat}
    (located : s.locate k i = some .previous) : s.previous.get k = some i := by
  unfold State.locate at located
  split at located
  · simp at located
  · split at located
    · assumption
    · simp at located

theorem removeAt_same (s : State K V) (k : K) (i : Nat) (location : Location) (evict : Bool) :
    (s.removeAt k i location evict).operations = s.operations ∧
      (s.removeAt k i location evict).chain = s.chain ∧
      (s.removeAt k i location evict).items = s.items ∧
      (s.removeAt k i location evict).calls = s.calls ∧
      (s.removeAt k i location evict).history = s.history ∧
      (s.removeAt k i location evict).arms = s.arms ∧
      (s.removeAt k i location evict).nextItem = s.nextItem ∧
      (s.removeAt k i location evict).nextCall = s.nextCall ∧
      (s.removeAt k i location evict).nextArm = s.nextArm := by
  unfold State.removeAt
  split <;> exact ⟨rfl, rfl, rfl, rfl, rfl, rfl, rfl, rfl, rfl⟩

/-- `renew` is a move between the maps followed by the expiry machinery. -/
theorem renew_armsOnly {s : State K V} {c i : Nat} (location : Location) (ilt : i < s.nextItem)
    (named : (s.items i).key = (s.calls c).key) :
    ArmsOnly (s.republish c i location) (s.renew c i location) := by
  refine armsOnly_trans (cancelDeadline_armsOnly _ i) (armDeadline_armsOnly _ _ ilt ?_)
  simpa [State.cancelDeadline, State.republish] using named

theorem concludeJoin_keepsOperations {s : State K V} {c i : Nat} (ilt : i < s.nextItem)
    (named : (s.items i).key = (s.calls c).key) (processed : Bool) :
    KeepsOperations s (s.concludeJoin c i processed) := by
  unfold State.concludeJoin
  split
  · exact keepsOperations_same rfl rfl
  · rename_i location _
    split
    · have removed := removeAt_same (s.cancelDeadline i) (s.calls c).key i location false
      exact keepsOperations_trans (keepsOperations_armsOnly (cancelDeadline_armsOnly s i))
        (keepsOperations_same removed.1 removed.2.1)
    · split
      · exact keepsOperations_trans (keepsOperations_same (t := s.republish c i location) rfl rfl)
          (keepsOperations_armsOnly (renew_armsOnly _ ilt named))
      · exact keepsOperations_same rfl rfl

theorem createItem_new (s : State K V) (c : Nat) :
    (s.createItem c).calls = s.calls ∧ (s.createItem c).nextCall = s.nextCall ∧
      (s.createItem c).nextItem = s.nextItem + 1 ∧
      ((s.createItem c).items s.nextItem).key = (s.calls c).key := by
  unfold State.createItem
  split
  · have named : ((s.insertItem c).items s.nextItem).key = (s.calls c).key := by
      simp [State.insertItem, State.newItem]
    have only := armDeadline_armsOnly (s.insertItem c) (s.calls c).context (Nat.lt_succ_self _) named
    refine ⟨only.calls, only.nextCall, only.nextItem, ?_⟩
    rw [only.key]
    simp [State.insertItem, State.newItem]
  · simp [State.insertItem, State.newItem]

/-- After a rotation a key is found where either generation had it. -/
theorem rescued_get {s : State K V} (k : K) :
    (s.current.setAll s.rescued).get k = (s.current.get k).or (s.previous.get k) := by
  cases cur : s.current.get k with
  | some i =>
    have absent : k ∉ s.rescued.map Prod.fst := by
      intro mem
      obtain ⟨e, emem, rfl⟩ := List.mem_map.mp mem
      have fresh := (List.mem_filter.mp emem).2
      simp [OrderedMap.has, cur] at fresh
    rw [OrderedMap.get_setAll_absent _ absent, cur]
    rfl
  | none =>
    cases prev : s.previous.get k with
    | some i =>
      have mem : (k, i) ∈ s.rescued := by
        refine List.mem_filter.mpr ⟨(OrderedMap.get_eq_some_iff _ _ _).mp prev, ?_⟩
        simp [OrderedMap.has, cur]
      have nodup : (s.rescued.map Prod.fst).Nodup :=
        s.previous.nodup.sublist (List.filter_sublist.map Prod.fst)
      exact OrderedMap.get_setAll_mem _ nodup mem
    | none =>
      have absent : k ∉ s.rescued.map Prod.fst := by
        intro mem
        obtain ⟨e, emem, rfl⟩ := List.mem_map.mp mem
        have inside := (List.mem_filter.mp emem).1
        have found := (OrderedMap.get_eq_some_iff s.previous e.1 e.2).mpr inside
        rw [prev] at found
        cases found
      rw [OrderedMap.get_setAll_absent _ absent, cur]
      rfl

theorem startOperation_cases {s t : State K V} {o : Nat} (next : s.startOperation o = some t) :
    s.chain.ready o = true ∧
      ((∃ c, (s.operations o).body = .join c ∧ t = s.startJoin o c (s.chain.lane o)) ∨
        ∃ a, (s.operations o).body = .expire a ∧ t = s.startExpire o a (s.chain.lane o)) := by
  unfold State.startOperation at next
  split at next
  · rename_i ready
    refine ⟨ready, ?_⟩
    split at next
    · rename_i c body
      exact Or.inl ⟨c, body, (Option.some.inj next).symm⟩
    · rename_i a body
      exact Or.inr ⟨a, body, (Option.some.inj next).symm⟩
  · cases next

theorem continueOperation_cases {s t : State K V} {o : Nat} (next : s.continueOperation o = some t) :
    o < s.chain.next ∧ s.chain.status o = .running ∧
      ((∃ c processed, (s.operations o).body = .join c ∧
          (s.operations o).stage = .returned (.returned processed) ∧
          t = s.continueJoin o c (s.chain.lane o) processed) ∨
        (∃ c, (s.operations o).body = .join c ∧ (s.operations o).stage = .returned .threw ∧
          t = s.settleJoin o c (.rejected .callbackFailed)) ∨
        ∃ a outcome, (s.operations o).body = .expire a ∧
          (s.operations o).stage = .returned outcome ∧
          t = s.continueExpire o a (s.chain.lane o)) := by
  unfold State.continueOperation at next
  simp only at next
  split at next
  · rename_i enabled
    refine ⟨enabled.1, enabled.2, ?_⟩
    split at next
    · rename_i processed c stage body
      exact Or.inl ⟨c, processed, body, stage, (Option.some.inj next).symm⟩
    · rename_i c stage body
      exact Or.inr (Or.inl ⟨c, body, stage, (Option.some.inj next).symm⟩)
    · rename_i outcome a stage body
      exact Or.inr (Or.inr ⟨a, outcome, body, stage, (Option.some.inj next).symm⟩)
    · cases next
  · cases next

theorem resume_cases {s t : State K V} {c : Nat} (next : s.resume c = some t) :
    c < s.nextCall ∧
      (((s.calls c).phase = .resuming (.value true) ∧ t = s.leave c .returned) ∨
        ((s.calls c).phase = .resuming (.value false) ∧ t = s.iterate c) ∨
        ∃ error, (s.calls c).phase = .resuming (.rejected error) ∧ t = s.leave c (.rejected error)) := by
  unfold State.resume at next
  split at next
  · rename_i lt
    refine ⟨lt, ?_⟩
    split at next
    · rename_i phase
      exact Or.inl ⟨phase, (Option.some.inj next).symm⟩
    · rename_i phase
      exact Or.inr (Or.inl ⟨phase, (Option.some.inj next).symm⟩)
    · rename_i error phase
      exact Or.inr (Or.inr ⟨error, phase, (Option.some.inj next).symm⟩)
    · cases next
  · cases next

/-- What the surroundings do: fire signals, move the clocks, configure, start,
    stop and let the rotation timer run out. -/
def Action.Outside : Action K V → Prop
  | .abort .. => True
  | .clock .. => True
  | .configure .. => True
  | .start => True
  | .stop => True
  | .rotationTimer => True
  | _ => False

theorem outside_step {s t : State K V} {a : Action K V} (next : step s a = some t) (outside : a.Outside) :
    t.objects = s.objects ∧ t.history = s.history := by
  cases a with
  | start =>
    cases next
    unfold State.start
    split <;> exact ⟨rfl, rfl⟩
  | stop =>
    cases next
    unfold State.stop
    split <;> exact ⟨rfl, rfl⟩
  | rotationTimer =>
    simp only [step] at next
    split at next
    · cases next
      unfold State.rotate
      split <;> exact ⟨rfl, rfl⟩
    · cases next
  | abort signal =>
    cases next
    exact ⟨rfl, rfl⟩
  | clock now contextNow =>
    cases next
    exact ⟨rfl, rfl⟩
  | configure ttlMs renewTTL =>
    cases next
    exact ⟨rfl, rfl⟩
  | _ => exact outside.elim

theorem enter_cases {s t : State K V} {c : Nat} (next : s.enter c = some t) :
    c < s.nextCall ∧ (s.calls c).phase = .entering ∧ s.stopCompletion = some true ∧
      t = (s.setActive (s.activeTTLJoins + 1)).iterate c := by
  unfold State.enter at next
  split at next
  · rename_i enabled
    exact ⟨enabled.1, enabled.2.1, enabled.2.2, (Option.some.inj next).symm⟩
  · cases next

/- A call is refused, waits for a pending `stop`, or makes its first pass at once. -/
theorem joinValue_cases (s : State K V) (context : Context) (key : K) (index : Number) (value : V) :
    s.joinValue context key index value = s.enterCall context key 0 value (.rejected .indexRange) ∨
      ∃ slot, slotIndex index = some slot ∧
        (s.joinValue context key index value = s.enterCall context key slot value .entering ∨
          ∃ active, s.joinValue context key index value =
            ((s.enterCall context key slot value .entering).setActive active).iterate
              s.nextCall) := by
  unfold State.joinValue
  split
  · exact Or.inl rfl
  · rename_i slot valid
    refine Or.inr ⟨slot, valid, ?_⟩
    simp only
    split
    · split
      · exact Or.inl rfl
      · exact Or.inr ⟨_, rfl⟩
    · exact Or.inr ⟨s.activeTTLJoins, rfl⟩

end JoinStorage
