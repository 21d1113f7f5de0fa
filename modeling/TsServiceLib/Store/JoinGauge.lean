import TsServiceLib.Store.JoinLookup

/-!
What the join storage says about its size. The gauge moves with the two
generations, insertion by insertion and removal by removal, and a rotation only
moves entries between them.
-/
namespace JoinStorage
open OrderedMaps TailChain Numbers Function
variable {K V : Type}

def State.counted (s : State K V) := (s.current, s.previous, s.metricsEnabled, s.count)

/-- With metrics the gauge shows the size. -/
def Gauged (s : State K V) : Prop := s.metricsEnabled = true → s.count = s.size

theorem gauged_same {s t : State K V} (h : Gauged s) (same : t.counted = s.counted) : Gauged t := by
  simp only [State.counted, Prod.mk.injEq] at same
  obtain ⟨current, previous, metrics, count⟩ := same
  unfold Gauged State.size at h ⊢
  rw [current, previous, metrics, count]
  exact h

section Idle

theorem counted_expire (s : State K V) (a : Nat) : (s.expire a).counted = s.counted := by
  unfold State.expire
  split <;> rfl

theorem counted_armDeadline (s : State K V) (context : Context) (k : K) (i : Nat) :
    (s.armDeadline context k i).counted = s.counted := by
  unfold State.armDeadline
  split
  · exact counted_expire _ _
  · rfl

theorem counted_leave (s : State K V) (c : Nat) (phase : Phase) : (s.leave c phase).counted = s.counted := by
  unfold State.leave
  split <;> rfl

theorem counted_startExpire (s : State K V) (o a i : Nat) : (s.startExpire o a i).counted = s.counted := by
  unfold State.startExpire
  split
  · rfl
  · split
    · exact counted_armDeadline _ _ _ _
    · rfl

theorem counted_startJoin [DecidableEq K] (s : State K V) (o c i : Nat) : (s.startJoin o c i).counted = s.counted := by
  unfold State.startJoin
  split
  · rfl
  · split <;> rfl

end Idle

variable [DecidableEq K]

section Moves
variable {s : State K V}

theorem gauged_insertItem (h : Gauged s) (c : Nat) : Gauged (s.insertItem c) := by
  intro metrics
  have counted := h metrics
  have entered := OrderedMap.size_set s.current (s.calls c).key s.nextItem
  have dropped := OrderedMap.size_delete s.previous (s.calls c).key
  have enabled : s.metricsEnabled = true := metrics
  simp only [State.insertItem, State.size, enabled, if_true] at counted ⊢
  rw [entered, counted]
  split_ifs at dropped ⊢ <;> omega

theorem gauged_createItem (h : Gauged s) (c : Nat) : Gauged (s.createItem c) := by
  unfold State.createItem
  split
  · exact gauged_same (gauged_insertItem h c) (counted_armDeadline _ _ _ _)
  · exact gauged_insertItem h c

theorem gauged_iterate (h : Gauged s) (c : Nat) : Gauged (s.iterate c) := by
  unfold State.iterate
  split
  · exact h
  · split
    · exact gauged_same h (counted_leave _ _ _)
    · exact gauged_createItem h c

theorem gauged_removeAt (h : Gauged s) (k : K) (i : Nat) (location : Location) (evict : Bool) :
    Gauged (s.removeAt k i location evict) := by
  unfold State.removeAt
  split
  · rename_i here
    intro metrics
    have counted := h metrics
    have enabled : s.metricsEnabled = true := metrics
    have current := OrderedMap.size_delete s.current k
    have previous := OrderedMap.size_delete s.previous k
    cases location with
    | current =>
      have present : s.current.has k = true := (OrderedMap.has_iff _ _).mpr ⟨i, here⟩
      rw [if_pos present] at current
      simp only [State.size, enabled, if_true, if_false, reduceCtorEq] at counted ⊢
      omega
    | previous =>
      have present : s.previous.has k = true := (OrderedMap.has_iff _ _).mpr ⟨i, here⟩
      rw [if_pos present] at previous
      simp only [State.size, enabled, if_true, if_false, reduceCtorEq] at counted ⊢
      omega
  · exact h

/-- A renewed group is in the current generation, wherever it was. -/
theorem size_republish (stored : Stored s) {c i : Nat} {location : Location}
    (located : s.locate (s.calls c).key i = some location) : (s.republish c i location).size = s.size := by
  have entered := OrderedMap.size_set s.current (s.calls c).key i
  have dropped := OrderedMap.size_delete s.previous (s.calls c).key
  cases location with
  | current =>
    have present : s.current.has (s.calls c).key = true := (OrderedMap.has_iff _ _).mpr ⟨i, locate_current located⟩
    rw [if_pos present] at entered
    simp only [State.republish, State.size, if_false, reduceCtorEq]
    omega
  | previous =>
    have get := locate_previous located
    have present : s.previous.has (s.calls c).key = true := (OrderedMap.has_iff _ _).mpr ⟨i, get⟩
    have absent : s.current.has (s.calls c).key = false := by
      apply Bool.eq_false_iff.mpr
      intro found
      obtain ⟨j, current⟩ := (OrderedMap.has_iff _ _).mp found
      have gone := stored.one_generation current
      rw [get] at gone
      cases gone
    rw [absent] at entered
    rw [if_pos present] at dropped
    simp only [Bool.false_eq_true, if_false] at entered
    simp only [State.republish, State.size, if_true]
    omega

theorem gauged_concludeJoin (stored : Stored s) (h : Gauged s) (c i : Nat) (processed : Bool) :
    Gauged (s.concludeJoin c i processed) := by
  unfold State.concludeJoin
  split
  · exact h
  · rename_i location located
    split
    · have cancelled : Gauged (s.cancelDeadline i) := gauged_same h rfl
      exact gauged_removeAt cancelled _ _ _ _
    · split
      · have republished : Gauged (s.republish c i location) := by
          intro metrics
          rw [size_republish stored located]
          exact h metrics
        exact gauged_same (gauged_same republished rfl) (counted_armDeadline _ _ _ _)
      · exact h

theorem gauged_concludeExpire (h : Gauged s) (a i : Nat) : Gauged (s.concludeExpire a i) := by
  unfold State.concludeExpire
  split
  · exact h
  · exact gauged_removeAt h _ _ _ _

theorem rescued_all (stored : Stored s) : s.rescued = s.previous.entries := by
  apply List.filter_eq_self.mpr
  intro e mem
  have absent : s.current.has e.1 = false := by
    apply Bool.eq_false_iff.mpr
    intro found
    obtain ⟨i, current⟩ := (OrderedMap.has_iff _ _).mp found
    have gone := stored.one_generation current
    rw [(OrderedMap.get_eq_some_iff s.previous e.1 e.2).mpr mem] at gone
    cases gone
  simp [absent]

theorem rotate_keeps (stored : Stored s) :
    s.rotate.size = s.size ∧ s.rotate.count = s.count ∧ s.rotate.evictionsTotal = s.evictionsTotal := by
  have all := rescued_all stored
  have fresh : ∀ e ∈ s.rescued, s.current.has e.1 = false := by
    intro e mem
    simpa using (List.mem_filter.mp mem).2
  have nodup : (s.rescued.map Prod.fst).Nodup := by
    rw [all]
    exact s.previous.nodup
  have moved := OrderedMap.size_setAll s.current nodup fresh
  have none : s.evicted = 0 := by
    unfold State.evicted
    rw [all]
    exact Nat.sub_self _
  unfold State.rotate
  split
  · refine ⟨?_, ?_, ?_⟩
    · rw [all] at moved
      simp only [State.swapGenerations, State.size, all, moved]
      exact Nat.zero_add _
    · simp [State.swapGenerations, none]
    · simp [State.swapGenerations, none]
  · exact ⟨rfl, rfl, rfl⟩

theorem gauged_rotate (stored : Stored s) (h : Gauged s) : Gauged s.rotate := by
  obtain ⟨size, count, -⟩ := rotate_keeps stored
  have enabled : s.rotate.metricsEnabled = s.metricsEnabled := by
    unfold State.rotate
    split <;> rfl
  intro metrics
  rw [enabled] at metrics
  rw [size, count]
  exact h metrics

end Moves

theorem gauged_step {s t : State K V} {a : Action K V} (wired : Wired s) (h : Gauged s) (next : step s a = some t) :
    Gauged t := by
  cases a with
  | joinValue context key index value =>
    cases next
    rcases joinValue_cases s context key index value with eq | ⟨slot, _, eq | ⟨active, eq⟩⟩
    · rw [eq]
      exact h
    · rw [eq]
      exact h
    · rw [eq]
      have entered : Gauged ((s.enterCall context key slot value .entering).setActive active) := gauged_same h rfl
      exact gauged_iterate entered _
  | enter c =>
    obtain ⟨_, _, _, rfl⟩ := enter_cases next
    have entered : Gauged (s.setActive (s.activeTTLJoins + 1)) := gauged_same h rfl
    exact gauged_iterate entered c
  | startOperation o =>
    obtain ⟨_, ⟨c, _, rfl⟩ | ⟨b, _, rfl⟩⟩ := startOperation_cases next
    · exact gauged_same h (counted_startJoin s o c _)
    · exact gauged_same h (counted_startExpire s o b _)
  | callbackReturns o outcome =>
    obtain ⟨_, _, _, ⟨c, _, rfl⟩ | ⟨b, _, rfl⟩⟩ := callbackReturns_cases next
    · exact h
    · exact h
  | continueOperation o =>
    obtain ⟨_, _, ⟨c, processed, _, _, rfl⟩ | ⟨c, _, _, rfl⟩ | ⟨b, _, _, _, rfl⟩⟩ := continueOperation_cases next
    · have stored : Stored (s.setProcessed (s.chain.lane o) processed) :=
        (wired_setProcessed wired (s.chain.lane o) processed).stored
      exact gauged_same (gauged_concludeJoin stored (gauged_same h rfl) c _ processed) rfl
    · exact h
    · exact gauged_same (gauged_concludeExpire h b _) rfl
  | resume c =>
    obtain ⟨_, ⟨_, rfl⟩ | ⟨_, rfl⟩ | ⟨_, _, rfl⟩⟩ := resume_cases next
    · exact gauged_same h (counted_leave _ _ _)
    · exact gauged_iterate h c
    · exact gauged_same h (counted_leave _ _ _)
  | fire b =>
    obtain ⟨_, _, rfl⟩ := fire_cases next
    exact gauged_same h (counted_expire _ _)
  | start =>
    cases next
    unfold State.start
    split <;> exact h
  | stop =>
    cases next
    unfold State.stop
    split <;> exact h
  | rotationTimer =>
    simp only [step] at next
    split at next
    · cases next
      exact gauged_same (gauged_rotate wired.stored h) rfl
    · cases next
  | _ =>
    cases next
    exact h

theorem gauged_reachable [Inhabited K] [Inhabited V] {s : State K V} (reached : Reachable s) : Wired s ∧ Gauged s := by
  obtain ⟨s₀, start, run⟩ := reached
  have fresh : Gauged s₀ := by
    obtain ⟨_, _, _, _, _, _, rfl⟩ := start
    intro _
    rfl
  refine Transitions.steps_invariant (fun s => Wired s ∧ Gauged s) ?_ run ⟨wired_initial start, fresh⟩
  rintro s a t ⟨wired, gauged⟩ _ next
  exact ⟨wired_step wired next, gauged_step wired gauged next⟩

/- In every reachable state a key is in one generation at most and the gauge shows
   the size; and a rotation changes neither what is found for a key nor the size,
   and evicts nothing. -/
theorem representation_invariant [Inhabited K] [Inhabited V] {s : State K V} (reached : Reachable s) :
    (∀ k, s.current.get k = none ∨ s.previous.get k = none) ∧
    (s.metricsEnabled = true → s.count = s.size) ∧
    ∀ t, step s .rotationTimer = some t →
      (∀ k, t.findLive k = s.findLive k) ∧ t.size = s.size ∧ t.evictionsTotal = s.evictionsTotal := by
  obtain ⟨wired, gauged⟩ := gauged_reachable reached
  refine ⟨?_, gauged, ?_⟩
  · intro k
    cases current : s.current.get k with
    | none => exact .inl rfl
    | some i => exact .inr (wired.stored.one_generation current)
  · intro t next
    have outside : (Action.rotationTimer : Action K V).Outside := trivial
    obtain ⟨objects, -⟩ := outside_step next outside
    simp only [step] at next
    split at next
    · cases next
      obtain ⟨size, -, evictions⟩ := rotate_keeps wired.stored
      refine ⟨?_, size, evictions⟩
      intro k
      have same : s.rotate.items = s.items ∧ s.rotate.now = s.now := by
        unfold State.rotate
        split <;> exact ⟨rfl, rfl⟩
      have entries : s.rotate.armRotation.entry k = s.entry k := entry_rotate s k
      rw [findLive_entry, findLive_entry, entries]
      simp only [State.armRotation, State.expired, same.1, same.2]
    · cases next

/-- Two groups with a rotation between them. -/
def rotatedJoins : List (Action Nat Nat) :=
  [.start, .joinValue ⟨0, none⟩ 3 (.finite 1) 7, .rotationTimer, .joinValue ⟨0, none⟩ 4 (.finite 0) 8]

theorem representation_invariant_rotated :
    ∃ s t : State Nat Nat, Transitions.exec step (initial 1000 false true 0 0 fun _ => false) rotatedJoins = some s ∧
      s.previous.get 3 = some 0 ∧ s.current.get 4 = some 1 ∧ s.count = 2 ∧ step s .rotationTimer = some t ∧
      (∀ k, t.findLive k = s.findLive k) ∧ t.size = s.size ∧ t.evictionsTotal = s.evictionsTotal := by
  obtain ⟨s, t, run, previous, current, enabled, two, next⟩ : ∃ s t : State Nat Nat,
      Transitions.exec step (initial 1000 false true 0 0 fun _ => false) rotatedJoins = some s ∧ s.previous.get 3 = some 0 ∧
      s.current.get 4 = some 1 ∧ s.metricsEnabled = true ∧ s.size = 2 ∧ step s .rotationTimer = some t :=
    ⟨_, _, rfl, rfl, rfl, rfl, rfl, rfl⟩
  obtain ⟨-, gauge, rotation⟩ := representation_invariant (reachable_exec run)
  have count := gauge enabled
  rw [two] at count
  exact ⟨s, t, run, previous, current, count, next, rotation t next⟩

end JoinStorage
