import TsServiceLib.Operators.JoinStream
import TsServiceLib.Store.JoinExpiry

/-!
What the function of a join operator is shown. A slot of a group only grows,
and only by the operation that then calls back with the whole group; so each
value is shown together with every value that was in the group before it.
-/
namespace JoinStreams
open JoinStorage TailChain Numbers Function

section Carrying
variable {K V : Type}

/-- No group loses a value, and only the named one may gain any. -/
structure Carries (entered : Option Nat) (s t : JoinStorage.State K V) : Prop where
  next_le : s.chain.next ≤ t.chain.next
  lane : ∀ {o}, o < s.chain.next → t.chain.lane o = s.chain.lane o
  nextItem_le : s.nextItem ≤ t.nextItem
  key : ∀ {i}, i < s.nextItem → (t.items i).key = (s.items i).key
  grown : ∀ {i}, i < s.nextItem → ∀ j, slot (s.items i).values j <+: slot (t.items i).values j
  same : ∀ {i}, i < s.nextItem → some i ≠ entered → ∀ j, slot (t.items i).values j = slot (s.items i).values j
  fresh : ∀ {i}, s.nextItem ≤ i → i < t.nextItem → ∀ j, slot (t.items i).values j = []

theorem carries_quiet {s t : JoinStorage.State K V} (quiet : Quiet s t) : Carries none s t where
  next_le := quiet.keeps.next_le
  lane := quiet.keeps.lane
  nextItem_le := quiet.nextItem_le
  key := fun lt => (quiet.item lt).1
  grown := by
    intro i lt j
    simp only [(quiet.item lt).2.1]
    exact List.prefix_rfl
  same := by
    intro i lt _ j
    rw [(quiet.item lt).2.1]
  fresh := quiet.new_item

/-- The groups and the operations are those of `s`, and every slot is as it was. -/
theorem carries_frame {s t : JoinStorage.State K V} (next : t.chain.next = s.chain.next)
    (lane : t.chain.lane = s.chain.lane) (nextItem : t.nextItem = s.nextItem)
    (items : ∀ i, (t.items i).key = (s.items i).key ∧ ∀ j, slot (t.items i).values j = slot (s.items i).values j) :
    Carries none s t where
  next_le := by rw [next]
  lane := by simp [lane]
  nextItem_le := by rw [nextItem]
  key := fun _ => (items _).1
  grown := by
    intro i _ j
    simp only [(items i).2 j]
    exact List.prefix_rfl
  same := fun _ _ => (items _).2
  fresh := by
    intro i low high
    omega

theorem carries_trans {s t u : JoinStorage.State K V} (st : Carries none s t) (tu : Carries none t u) :
    Carries none s u where
  next_le := Nat.le_trans st.next_le tu.next_le
  lane := fun lt => (tu.lane (Nat.lt_of_lt_of_le lt st.next_le)).trans (st.lane lt)
  nextItem_le := Nat.le_trans st.nextItem_le tu.nextItem_le
  key := fun lt => (tu.key (Nat.lt_of_lt_of_le lt st.nextItem_le)).trans (st.key lt)
  grown := fun lt j => (st.grown lt j).trans (tu.grown (Nat.lt_of_lt_of_le lt st.nextItem_le) j)
  same := fun lt other j => (tu.same (Nat.lt_of_lt_of_le lt st.nextItem_le) other j).trans (st.same lt other j)
  fresh := by
    intro i low high j
    by_cases inside : i < t.nextItem
    · rw [tu.same inside (by simp) j]
      exact st.fresh low inside j
    · exact tu.fresh (Nat.le_of_not_lt inside) high j

theorem carries_any {s t : JoinStorage.State K V} (h : Carries none s t) (entered : Option Nat) : Carries entered s t where
  next_le := h.next_le
  lane := h.lane
  nextItem_le := h.nextItem_le
  key := h.key
  grown := h.grown
  same := fun lt _ => h.same lt (by simp)
  fresh := h.fresh

/-- Writing to a group leaves its slots alone if the new array has the same ones. -/
theorem slots_setItem (s : JoinStorage.State K V) (i : Nat) {content : Item K V} (key : content.key = (s.items i).key)
    (values : ∀ j, slot content.values j = slot (s.items i).values j) (k : Nat) :
    ((s.setItem i content).items k).key = (s.items k).key ∧
      ∀ j, slot ((s.setItem i content).items k).values j = slot (s.items k).values j := by
  by_cases here : k = i
  · subst k
    simpa [State.setItem] using ⟨key, values⟩
  · simp [State.setItem, update_of_ne here]

variable [DecidableEq K]

omit [DecidableEq K] in
theorem carries_appendValue {s : JoinStorage.State K V} {o c i : Nat} (small : (s.calls c).index < maxArrayLength) :
    Carries (some i) s (s.appendValue o c i) := by
  have other : ∀ k, k ≠ i → (s.appendValue o c i).items k = s.items k := fun k different => update_of_ne different _ _
  have own : (s.appendValue o c i).items i =
      { s.items i with values := State.pushValue (s.items i).values (s.calls c).index (s.calls c).value } :=
    update_self ..
  refine ⟨Nat.le_refl _, fun _ => rfl, Nat.le_refl _, ?_, ?_, ?_, ?_⟩
  · intro k _
    by_cases here : k = i
    · rw [here, own]
    · rw [other k here]
  · intro k _ j
    by_cases here : k = i
    · rw [here, own, slot_pushValue _ _ small]
      split
      · exact List.prefix_append _ _
      · exact List.prefix_rfl
    · simp only [other k here]
      exact List.prefix_rfl
  · intro k _ different j
    rw [other k (fun here => different (by rw [here]))]
  · intro k low high
    exact absurd high (Nat.not_lt.mpr low)

omit [DecidableEq K] in
theorem carries_settleJoin (s : JoinStorage.State K V) (o c : Nat) (result : OperationResult) :
    Carries none s ((s.begin o).settleJoin o c result) :=
  carries_frame rfl rfl rfl fun _ => ⟨rfl, fun _ => rfl⟩

omit [DecidableEq K] in
theorem carries_setProcessed (s : JoinStorage.State K V) (i : Nat) (processed : Bool) :
    Carries none s (s.setProcessed i processed) :=
  carries_frame rfl rfl rfl (slots_setItem s i rfl fun _ => rfl)

/-- An operation that starts touches its own group, and that one only if it calls back. -/
theorem carries_startOperation {s t : JoinStorage.State K V} (wired : Wired s) {o : Nat}
    (next : s.startOperation o = some t) :
    o < s.chain.next ∧ Carries (some (s.chain.lane o)) s t ∧
      ((t.operations o).stage ≠ .inCallback → Carries none s t) := by
  obtain ⟨ready, ⟨c, _, rfl⟩ | ⟨a, body, rfl⟩⟩ := startOperation_cases next
  · have lt := ((Chain.ready_iff _ _).mp ready).1
    refine ⟨lt, ?_⟩
    unfold State.startJoin
    split
    · have kept := carries_settleJoin s o c (.value false)
      exact ⟨carries_any kept _, fun _ => kept⟩
    · split
      · have kept : Carries none s (((s.begin o).setValues (s.chain.lane o)
            (State.padValues (s.items (s.chain.lane o)).values (s.calls c).index)).settleJoin o c (.rejected .arrayLength)) :=
          carries_frame rfl rfl rfl (slots_setItem s _ rfl fun j => slot_padValues _ _ j)
        exact ⟨carries_any kept _, fun _ => kept⟩
      · rename_i small
        refine ⟨carries_appendValue (Nat.lt_of_not_le small), ?_⟩
        intro outside
        refine absurd ?_ outside
        simp [State.appendValue, State.record, State.setStage]
  · have lt := ((Chain.ready_iff _ _).mp ready).1
    suffices kept : Carries none s (s.startExpire o a (s.chain.lane o)) from ⟨lt, carries_any kept _, fun _ => kept⟩
    unfold State.startExpire
    split
    · exact carries_frame rfl rfl rfl fun _ => ⟨rfl, fun _ => rfl⟩
    · split
      · have begun : Carries none s (s.begin o) := carries_frame rfl rfl rfl fun _ => ⟨rfl, fun _ => rfl⟩
        have only := rearm_armsOnly wired lt body
        refine carries_trans (carries_trans begun (carries_quiet (quiet_armsOnly only))) ?_
        exact carries_frame rfl rfl rfl fun _ => ⟨rfl, fun _ => rfl⟩
      · exact carries_trans (carries_setProcessed s (s.chain.lane o) true)
          (carries_frame rfl rfl rfl fun _ => ⟨rfl, fun _ => rfl⟩)

theorem carries_step {s t : JoinStorage.State K V} {a : JoinStorage.Action K V} (wired : Wired s)
    (other : ∀ o, a ≠ .startOperation o) (next : JoinStorage.step s a = some t) : Carries none s t := by
  cases a with
  | joinValue context key index value =>
    cases next
    exact carries_quiet (quiet_joinValue s context key index value)
  | enter c =>
    obtain ⟨_, _, _, rfl⟩ := enter_cases next
    exact carries_quiet (quiet_trans (quiet_active s _) (quiet_iterate _ c))
  | startOperation o => exact absurd rfl (other o)
  | callbackReturns o outcome =>
    obtain ⟨_, _, _, ⟨c, _, rfl⟩ | ⟨a, _, rfl⟩⟩ := callbackReturns_cases next <;>
      exact carries_frame rfl rfl rfl fun _ => ⟨rfl, fun _ => rfl⟩
  | continueOperation o =>
    obtain ⟨lt, _, ⟨c, processed, body, _, rfl⟩ | ⟨c, _, _, rfl⟩ | ⟨a, _, _, _, rfl⟩⟩ := continueOperation_cases next
    · have named : ((s.setProcessed (s.chain.lane o) processed).items (s.chain.lane o)).key = (s.calls c).key := by
        simpa [State.setProcessed, State.setItem] using (wired.join_body lt body).2
      have concluded := quiet_concludeJoin (s := s.setProcessed (s.chain.lane o) processed)
        (wired.lane_item lt) named processed
      refine carries_trans (carries_setProcessed s (s.chain.lane o) processed) ?_
      exact carries_trans (carries_quiet concluded) (carries_frame rfl rfl rfl fun _ => ⟨rfl, fun _ => rfl⟩)
    · exact carries_frame rfl rfl rfl fun _ => ⟨rfl, fun _ => rfl⟩
    · exact carries_trans (carries_quiet (quiet_concludeExpire s a _))
        (carries_frame rfl rfl rfl fun _ => ⟨rfl, fun _ => rfl⟩)
  | resume c =>
    obtain ⟨_, ⟨_, rfl⟩ | ⟨_, rfl⟩ | ⟨_, _, rfl⟩⟩ := resume_cases next
    · exact carries_quiet (quiet_leave s c _)
    · exact carries_quiet (quiet_iterate s c)
    · exact carries_quiet (quiet_leave s c _)
  | fire b => exact carries_quiet (quiet_fire next)
  | _ =>
    obtain ⟨objects, history⟩ := outside_step next trivial
    exact carries_quiet (quiet_frame objects history)

end Carrying

section Pairs
variable {K V : Type} [DecidableEq K]

/-- The calls so far belong to groups that have kept what they showed, and they
    have shown every two values that the operator joins. -/
structure Shown (s : State K V) : Prop where
  wired : Wired s.storage
  call : ∀ call ∈ s.functionCalls, call.item < s.storage.nextItem ∧
    call.key = (s.storage.items call.item).key ∧ call.gate.opens call.values = true ∧
    ∀ j, slot call.values j <+: slot (s.storage.items call.item).values j
  pairs : ∀ {i}, i < s.storage.nextItem → ∀ {j}, s.gate.joins j → ∀ {p q},
    p < (slot (s.storage.items i).values 0).length → q < (slot (s.storage.items i).values j).length →
    ∃ call ∈ s.functionCalls, call.item = i ∧ p < (slot call.values 0).length ∧ q < (slot call.values j).length

theorem shown_storage {s : State K V} (h : Shown s) {storage : JoinStorage.State K V}
    (kept : Carries none s.storage storage) (wired : Wired storage) : Shown { s with storage := storage } where
  wired := wired
  call := by
    intro call mem
    obtain ⟨made, key, opened, shown⟩ := h.call call mem
    exact ⟨Nat.lt_of_lt_of_le made kept.nextItem_le, key.trans (kept.key made).symm, opened,
      fun j => (shown j).trans (kept.grown made j)⟩
  pairs := by
    intro i lt j joined p q left right
    by_cases old : i < s.storage.nextItem
    · rw [kept.same old (by simp)] at left right
      exact h.pairs old joined left right
    · rw [kept.fresh (Nat.le_of_not_lt old) lt] at left
      cases left

/-- The callback that an operation enters shows the whole of its group. -/
theorem shown_enterCallback {s : State K V} (h : Shown s) {o : Nat} {storage : JoinStorage.State K V}
    (made : o < s.storage.chain.next) (kept : Carries (some (s.storage.chain.lane o)) s.storage storage)
    (wired : Wired storage) : Shown (enterCallback s storage o) where
  wired := wired
  call := by
    intro call mem
    have lt := Nat.lt_of_lt_of_le made kept.next_le
    simp only [enterCallback] at mem ⊢
    split at mem
    · rename_i opened
      rcases List.mem_cons.mp mem with rfl | before
      · refine ⟨wired.lane_item lt, ?_, opened, fun j => List.prefix_rfl⟩
        unfold capturedKey
        split
        · rename_i c body
          exact (wired.join_body lt body).2.symm
        · rfl
      · obtain ⟨old, key, opened, shown⟩ := h.call call before
        exact ⟨Nat.lt_of_lt_of_le old kept.nextItem_le, key.trans (kept.key old).symm, opened,
          fun j => (shown j).trans (kept.grown old j)⟩
    · obtain ⟨old, key, opened, shown⟩ := h.call call mem
      exact ⟨Nat.lt_of_lt_of_le old kept.nextItem_le, key.trans (kept.key old).symm, opened,
        fun j => (shown j).trans (kept.grown old j)⟩
  pairs := by
    intro i lt j joined p q left right
    have lane := kept.lane made
    simp only [enterCallback] at lt joined left right ⊢
    by_cases own : i = storage.chain.lane o
    · -- both sides hold something, so the function is called with both of them
      subst i
      have opened := opens_of_both joined (Nat.lt_of_le_of_lt (Nat.zero_le p) left) (Nat.lt_of_le_of_lt (Nat.zero_le q) right)
      rw [if_pos opened]
      exact ⟨_, List.mem_cons_self, rfl, left, right⟩
    · have earlier : ∃ call ∈ s.functionCalls, call.item = i ∧ p < (slot call.values 0).length ∧
          q < (slot call.values j).length := by
        by_cases old : i < s.storage.nextItem
        · have other : some i ≠ some (s.storage.chain.lane o) := by
            intro here
            exact own ((Option.some.inj here).trans lane.symm)
          rw [kept.same old other] at left right
          exact h.pairs old joined left right
        · rw [kept.fresh (Nat.le_of_not_lt old) lt] at left
          cases left
      obtain ⟨call, mem, shown⟩ := earlier
      refine ⟨call, ?_, shown⟩
      split
      · exact List.mem_cons_of_mem _ mem
      · exact mem

theorem shown_inStorage {s t : State K V} (h : Shown s) {a : JoinStorage.Action K V}
    (other : ∀ o, a ≠ .startOperation o) (next : inStorage s a = some t) : Shown t := by
  obtain ⟨storage, moved, rfl⟩ := Option.map_eq_some_iff.mp next
  exact shown_storage h (carries_step h.wired other moved) (wired_step h.wired moved)

theorem shown_startOperation {s t : State K V} (h : Shown s) {o : Nat} (next : startOperation s o = some t) : Shown t := by
  obtain ⟨storage, moved, rfl⟩ := Option.map_eq_some_iff.mp next
  obtain ⟨made, kept, quiet⟩ := carries_startOperation h.wired moved
  have wired := wired_step h.wired moved
  split
  · exact shown_enterCallback h made kept wired
  · rename_i outside
    exact shown_storage h (quiet outside) wired

theorem shown_step {s t : State K V} {a : Action K V} (h : Shown s) (next : step s a = some t) : Shown t := by
  cases a with
  | consume context key value => exact shown_inStorage h (by simp) next
  | consumeRight context index key value =>
    simp only [step] at next
    split at next
    · exact shown_inStorage h (by simp) next
    · cases next
  | bindMultiJoinRight =>
    simp only [step] at next
    split at next
    · cases next
      exact ⟨h.wired, h.call, h.pairs⟩
    · cases next
  | configure joinType =>
    simp only [step] at next
    split at next
    · rename_i before gate
      cases next
      refine ⟨h.wired, h.call, ?_⟩
      intro i lt j joined
      exact h.pairs lt (by rw [gate]; exact joined)
    · cases next
  | functionSettles o outcome =>
    simp only [step] at next
    split at next
    · exact shown_inStorage h (by simp) next
    · cases next
  | functionSkipped o =>
    simp only [step] at next
    split at next
    · cases next
    · exact shown_inStorage h (by simp) next
  | startOperation o => exact shown_startOperation h next
  | storage action =>
    simp only [step] at next
    split at next
    · rename_i quiet
      refine shown_inStorage h ?_ next
      rintro o rfl
      cases quiet
    · cases next

variable [Inhabited K] [Inhabited V]

theorem shown_reached {s : State K V} (reached : Reached s) : Shown s := by
  obtain ⟨storage, joinType, start, run⟩ := reached
  refine Transitions.steps_invariant Shown (fun _ _ _ h _ next => shown_step h next) run ?_
  have wired : Wired storage := wired_initial start
  obtain ⟨ttlMs, renewTTL, metricsEnabled, now, contextNow, aborted, rfl⟩ := start
  cases joinType <;> exact ⟨wired, by simp [initial], by simp [initial, JoinStorage.initial]⟩

/- The function of a join is called for groups only, under their keys, with the
   sides it needs and with what came to each side first; and any two values that
   it joins and that met in a group are shown to it together. -/
theorem function_sees_pairs {s : State K V} (reached : Reached s) :
    (∀ call ∈ s.functionCalls, call.item < s.storage.nextItem ∧
      call.key = (s.storage.items call.item).key ∧ call.gate.opens call.values = true ∧
      ∀ j, slot call.values j <+: slot (s.storage.items call.item).values j) ∧
    ∀ i, i < s.storage.nextItem → ∀ j, s.gate.joins j → ∀ (p q : Nat) (a b : V),
      (slot (s.storage.items i).values 0)[p]? = some a → (slot (s.storage.items i).values j)[q]? = some b →
      ∃ call ∈ s.functionCalls, call.item = i ∧ (slot call.values 0)[p]? = some a ∧ (slot call.values j)[q]? = some b := by
  have shown := shown_reached reached
  refine ⟨shown.call, ?_⟩
  intro i lt j joined p q a b left right
  obtain ⟨leftInside, leftIs⟩ := List.getElem?_eq_some_iff.mp left
  obtain ⟨rightInside, rightIs⟩ := List.getElem?_eq_some_iff.mp right
  obtain ⟨call, mem, rfl, before, after⟩ := shown.pairs lt joined leftInside rightInside
  have kept := (shown.call call mem).2.2.2
  refine ⟨call, mem, rfl, ?_, ?_⟩
  · rw [List.getElem?_eq_getElem before, (kept 0).getElem before, leftIs]
  · rw [List.getElem?_eq_getElem after, (kept j).getElem after, rightIs]

end Pairs

/-- A left value that meets nothing, then a right one under its key. -/
def meeting : List (Action Nat Nat) :=
  [.consume ⟨0, none⟩ 5 7, .startOperation 0, .functionSkipped 0, .storage (.continueOperation 0), .storage (.resume 0),
    .consumeRight ⟨0, none⟩ 1 5 9, .startOperation 1]

theorem function_sees_pairs_met :
    ∃ s : State Nat Nat,
      Transitions.exec step (initial (JoinStorage.initial 0 false true 0 0 fun _ => false) (some .inner)) meeting = some s ∧
      s.functionCalls.length = 1 ∧
      ∃ call ∈ s.functionCalls, call.item = 0 ∧ (slot call.values 0)[0]? = some 7 ∧ (slot call.values 1)[0]? = some 9 := by
  obtain ⟨s, run, once, made, joined, left, right⟩ : ∃ s : State Nat Nat,
      Transitions.exec step (initial (JoinStorage.initial 0 false true 0 0 fun _ => false) (some .inner)) meeting = some s ∧
      s.functionCalls.length = 1 ∧ 0 < s.storage.nextItem ∧ s.gate.joins 1 ∧
      (slot (s.storage.items 0).values 0)[0]? = some 7 ∧ (slot (s.storage.items 0).values 1)[0]? = some 9 :=
    ⟨_, rfl, rfl, by decide, rfl, rfl, rfl⟩
  have reached : Reached s :=
    ⟨_, some .inner, ⟨0, false, true, 0, 0, fun _ => false, rfl⟩, Transitions.exec_steps run⟩
  exact ⟨s, run, once, (function_sees_pairs reached).2 0 made 1 joined 0 0 7 9 left right⟩

end JoinStreams
