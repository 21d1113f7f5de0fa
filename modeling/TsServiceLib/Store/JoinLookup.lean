import TsServiceLib.Store.JoinExpiry

/-!
The two generations of a join storage read as one map. A key has at most one
entry, rotation and renewal do not move it, and `findLive` and `locate` only
depend on it. With this map the phases of a group can be told: a group that is
processed and still stored is inside its deadline callback.
-/
namespace JoinStorage
open OrderedMaps TailChain Numbers Function

section Entry
variable {K V : Type} [DecidableEq K]

/-- The group stored for the key, in whichever generation. -/
def State.entry (s : State K V) (k : K) : Option Nat := (s.current.get k).or (s.previous.get k)

theorem findLive_entry (s : State K V) (k : K) :
    s.findLive k = (s.entry k).filter fun i => !s.expired i := by
  unfold State.findLive State.entry
  cases s.current.get k with
  | some i => cases expired : s.expired i <;> simp [Option.filter, expired]
  | none =>
    cases s.previous.get k with
    | some i => cases expired : s.expired i <;> simp [Option.filter, expired]
    | none => simp

theorem entry_iff {s : State K V} (h : Stored s) (k : K) (i : Nat) :
    s.entry k = some i ↔ s.current.get k = some i ∨ s.previous.get k = some i := by
  unfold State.entry
  cases current : s.current.get k with
  | some j => simp [h.one_generation current]
  | none => simp

theorem locate_eq_none {s : State K V} (h : Stored s) (k : K) (i : Nat) :
    s.locate k i = none ↔ s.entry k ≠ some i := by
  rw [ne_eq, entry_iff h]
  unfold State.locate
  by_cases current : s.current.get k = some i
  · simp [current]
  · by_cases previous : s.previous.get k = some i
    · simp [current, previous]
    · simp [current, previous]

theorem entry_item {s : State K V} (h : Stored s) {k : K} {i : Nat} (stored : s.entry k = some i) :
    i < s.nextItem ∧ (s.items i).key = k := by
  rcases (entry_iff h k i).mp stored with get | get
  · exact h.current_item get
  · exact h.previous_item get

theorem entry_frame {s t : State K V} (current : t.current = s.current)
    (previous : t.previous = s.previous) (k : K) : t.entry k = s.entry k := by
  simp [State.entry, current, previous]

theorem entry_insertItem (s : State K V) (c : Nat) (k : K) :
    (s.insertItem c).entry k = if k = (s.calls c).key then some s.nextItem else s.entry k := by
  unfold State.entry State.insertItem
  by_cases here : k = (s.calls c).key
  · subst k
    simp
  · simp [here, OrderedMap.get_set_of_ne, OrderedMap.get_delete]

theorem entry_swapGenerations (s : State K V) (k : K) : s.swapGenerations.entry k = s.entry k := by
  have found := rescued_get (s := s) k
  simpa [State.entry, State.swapGenerations, OrderedMap.get, OrderedMap.empty] using found

theorem entry_rotate (s : State K V) (k : K) : s.rotate.entry k = s.entry k := by
  unfold State.rotate
  split
  · exact entry_swapGenerations s k
  · rfl

theorem outside_entry {s t : State K V} {a : Action K V} (next : step s a = some t) (outside : a.Outside) (k : K) :
    t.entry k = s.entry k := by
  cases a with
  | start =>
    cases next
    unfold State.start
    split <;> rfl
  | stop =>
    cases next
    unfold State.stop
    split <;> rfl
  | rotationTimer =>
    simp only [step] at next
    split at next
    · cases next
      exact entry_rotate s k
    · cases next
  | abort signal =>
    cases next
    rfl
  | clock now contextNow =>
    cases next
    rfl
  | configure ttlMs renewTTL =>
    cases next
    rfl
  | _ => exact outside.elim

theorem entry_removeAt {s : State K V} (h : Stored s) {k : K} {i : Nat} {location : Location}
    (located : s.locate k i = some location) (evict : Bool) (l : K) :
    (s.removeAt k i location evict).entry l = if l = k then none else s.entry l := by
  cases location with
  | current =>
    have get := locate_current located
    have other := h.one_generation get
    unfold State.removeAt State.entry
    by_cases here : l = k
    · subst l
      simp [State.generation, get, other]
    · simp [State.generation, get, here, OrderedMap.get_delete]
  | previous =>
    have get := locate_previous located
    have other : s.current.get k = none := by
      cases current : s.current.get k with
      | none => rfl
      | some j =>
        have gone := h.one_generation current
        rw [get] at gone
        cases gone
    unfold State.removeAt State.entry
    by_cases here : l = k
    · subst l
      simp [State.generation, get, other]
    · simp [State.generation, get, here, OrderedMap.get_delete]

theorem entry_republish {s : State K V} (h : Stored s) {c i : Nat} {location : Location}
    (located : s.locate (s.calls c).key i = some location) (k : K) :
    (s.republish c i location).entry k = s.entry k := by
  have stored : s.entry (s.calls c).key = some i := by
    by_contra missing
    rw [(locate_eq_none h _ _).mpr missing] at located
    cases located
  by_cases here : k = (s.calls c).key
  · subst k
    rw [stored]
    simp [State.entry, State.republish]
  · cases location <;> simp [State.entry, State.republish, here, OrderedMap.get_set_of_ne,
      OrderedMap.get_delete]

end Entry

section Phases
variable {K V : Type}

theorem setProcessed_item (s : State K V) (i : Nat) (processed : Bool) (j : Nat) :
    (s.setProcessed i processed).items j =
      { s.items j with processed := if j = i then processed else (s.items j).processed } := by
  by_cases same : j = i
  · subst j
    simp [State.setProcessed, State.setItem]
  · simp [State.setProcessed, State.setItem, same]

variable [DecidableEq K]

/- Pieces that start, settle and process nothing. A key may lose its entry. -/
structure Idle (s t : State K V) : Prop where
  keeps : KeepsOperations s t
  waiting : ∀ {o}, s.chain.next ≤ o → o < t.chain.next → t.chain.status o = .waiting
  nextItem : t.nextItem = s.nextItem
  item : ∀ i, i < s.nextItem → (t.items i).key = (s.items i).key ∧
    (t.items i).processed = (s.items i).processed
  entry : ∀ k i, t.entry k = some i → s.entry k = some i

theorem idle_quiet {s t : State K V} (quiet : Quiet s t) (nextItem : t.nextItem = s.nextItem)
    (entry : ∀ k i, t.entry k = some i → s.entry k = some i) : Idle s t where
  keeps := quiet.keeps
  waiting := fun lo hi => (quiet.waiting lo hi).1
  nextItem := nextItem
  item := fun _ lt => ⟨(quiet.item lt).1, (quiet.item lt).2.2⟩
  entry := entry

theorem idle_frame {s t : State K V} (operations : t.operations = s.operations)
    (chain : t.chain = s.chain) (nextItem : t.nextItem = s.nextItem)
    (item : ∀ i, i < s.nextItem → (t.items i).key = (s.items i).key ∧
      (t.items i).processed = (s.items i).processed)
    (entry : ∀ k i, t.entry k = some i → s.entry k = some i) : Idle s t where
  keeps := keepsOperations_same operations chain
  waiting := by
    intro o lo hi
    rw [chain] at hi
    omega
  nextItem := nextItem
  item := item
  entry := entry

theorem idle_armsOnly {s t : State K V} (only : ArmsOnly s t) : Idle s t := by
  refine idle_quiet (quiet_armsOnly only) only.nextItem ?_
  intro k i
  rw [entry_frame only.current only.previous]
  exact id

/-- The phases a group goes through, as its operations and the map show them. -/
structure Phases (s : State K V) : Prop where
  staged : ∀ {o}, o < s.chain.next → s.chain.status o = .running → (s.operations o).stage ≠ .idle
  worked : ∀ {i}, i < s.nextItem → (s.items i).processed = true →
    ∃ o, o < s.chain.next ∧ s.chain.lane o = i ∧ s.chain.status o ≠ .waiting
  closing : ∀ {i}, i < s.nextItem → (s.items i).processed = true →
    s.entry (s.items i).key = some i →
    ∃ o a, o < s.chain.next ∧ s.chain.lane o = i ∧ s.chain.status o = .running ∧
      (s.operations o).body = .expire a

theorem phases_idle {s t : State K V} (h : Phases s) (idle : Idle s t) : Phases t where
  staged := by
    intro o lt running
    by_cases old : o < s.chain.next
    · rw [idle.keeps.status old] at running
      rw [idle.keeps.operation old]
      exact h.staged old running
    · rw [idle.waiting (by omega) lt] at running
      cases running
  worked := by
    intro i lt processed
    rw [idle.nextItem] at lt
    rw [(idle.item i lt).2] at processed
    obtain ⟨o, olt, lane, begun⟩ := h.worked lt processed
    refine ⟨o, Nat.lt_of_lt_of_le olt idle.keeps.next_le, ?_⟩
    rw [idle.keeps.lane olt, idle.keeps.status olt]
    exact ⟨lane, begun⟩
  closing := by
    intro i lt processed stored
    rw [idle.nextItem] at lt
    rw [(idle.item i lt).2] at processed
    rw [(idle.item i lt).1] at stored
    obtain ⟨o, a, olt, lane, running, body⟩ := h.closing lt processed (idle.entry _ _ stored)
    refine ⟨o, a, Nat.lt_of_lt_of_le olt idle.keeps.next_le, ?_⟩
    rw [idle.keeps.lane olt, idle.keeps.status olt, idle.keeps.operation olt]
    exact ⟨lane, running, body⟩

theorem phases_settle {s : State K V} (h : Phases s) {o : Nat} (lt : o < s.chain.next)
    (last : ∀ a, s.chain.status o = .running → (s.operations o).body = .expire a →
      s.entry (s.items (s.chain.lane o)).key ≠ some (s.chain.lane o)) : Phases (s.settle o) where
  staged := by
    intro p plt running
    by_cases same : p = o
    · subst p
      simp [State.settle, Chain.settle] at running
    · exact h.staged plt (by simpa [State.settle, Chain.settle, update_of_ne same] using running)
  worked := by
    intro i ilt processed
    obtain ⟨p, plt, lane, begun⟩ := h.worked ilt processed
    refine ⟨p, plt, lane, ?_⟩
    by_cases same : p = o
    · subst p
      simp [State.settle, Chain.settle]
    · simpa [State.settle, Chain.settle, update_of_ne same] using begun
  closing := by
    intro i ilt processed stored
    obtain ⟨p, a, plt, lane, running, body⟩ := h.closing ilt processed stored
    refine ⟨p, a, plt, lane, ?_, body⟩
    have same : p ≠ o := by
      rintro rfl
      subst lane
      exact last a running body stored
    simpa [State.settle, Chain.settle, update_of_ne same] using running

theorem phases_insertItem {s : State K V} (h : Phases s) (c : Nat) :
    Phases (s.insertItem c) := by
  have old : ∀ {i}, i < s.nextItem + 1 → i ≠ s.nextItem → i < s.nextItem := by omega
  constructor
  · exact h.staged
  · intro i ilt processed
    by_cases new : i = s.nextItem
    · subst i
      simp [State.insertItem, State.newItem] at processed
    · simp only [State.insertItem, update_of_ne new] at processed
      exact h.worked (old ilt new) processed
  · intro i ilt processed inside
    by_cases new : i = s.nextItem
    · subst i
      simp [State.insertItem, State.newItem] at processed
    · have item : (s.insertItem c).items i = s.items i := by
        simp [State.insertItem, update_of_ne new]
      rw [item] at processed inside
      rw [entry_insertItem] at inside
      split at inside
      · exact absurd (Option.some.inj inside).symm new
      · exact h.closing (old ilt new) processed inside

/- An operation begins and is inside its callback; an expiry has closed its group. -/
theorem phases_begun {s t : State K V} (wired : Wired s) (h : Phases s) {o : Nat}
    (ready : s.chain.ready o = true) (nextItem : t.nextItem = s.nextItem)
    (next : t.chain.next = s.chain.next) (lane : t.chain.lane = s.chain.lane)
    (status : t.chain.status = update s.chain.status o .running)
    (operations : t.operations = update s.operations o { s.operations o with stage := .inCallback })
    (keys : ∀ i, (t.items i).key = (s.items i).key)
    (processed : ∀ i, i ≠ s.chain.lane o ∨ (∀ a, (s.operations o).body ≠ .expire a) →
      (t.items i).processed = (s.items i).processed)
    (entry : ∀ k, t.entry k = s.entry k) : Phases t := by
  obtain ⟨lt, waiting, _⟩ := (Chain.ready_iff _ _).mp ready
  have bodies : ∀ p, (t.operations p).body = (s.operations p).body := by
    intro p
    rw [operations]
    exact update_body _ p
  constructor
  · intro p plt running
    rw [operations]
    by_cases same : p = o
    · subst p
      simp
    · rw [update_of_ne same]
      rw [status, update_of_ne same] at running
      exact h.staged (next ▸ plt) running
  · intro i ilt done
    rw [nextItem] at ilt
    by_cases here : i = s.chain.lane o
    · refine ⟨o, next ▸ lt, by rw [lane, here], ?_⟩
      simp [status]
    · rw [processed i (Or.inl here)] at done
      obtain ⟨p, plt, plane, begun⟩ := h.worked ilt done
      refine ⟨p, next ▸ plt, by rw [lane, plane], ?_⟩
      have same : p ≠ o := by
        rintro rfl
        exact here plane.symm
      rw [status, update_of_ne same]
      exact begun
  · intro i ilt done inside
    rw [nextItem] at ilt
    rw [keys, entry] at inside
    by_cases here : i = s.chain.lane o
    · cases body : (s.operations o).body with
      | expire a =>
        refine ⟨o, a, next ▸ lt, by rw [lane, here], ?_, by rw [bodies, body]⟩
        simp [status]
      | join c =>
        -- the lane was idle, so its group cannot have been inside a deadline callback
        rw [processed i (Or.inr (by simp [body]))] at done
        obtain ⟨p, a, plt, plane, running, _⟩ := h.closing ilt done inside
        exact absurd running (Chain.ready_lane_idle wired.chain ready plt (plane.trans here))
    · rw [processed i (Or.inl here)] at done
      obtain ⟨p, a, plt, plane, running, body⟩ := h.closing ilt done inside
      have same : p ≠ o := by
        rintro rfl
        exact here plane.symm
      refine ⟨p, a, next ▸ plt, by rw [lane, plane], ?_, by rw [bodies, body]⟩
      rw [status, update_of_ne same]
      exact running

theorem idle_removeAt {s : State K V} (stored : Stored s) {k : K} {i : Nat} {location : Location}
    (located : s.locate k i = some location) (evict : Bool) :
    Idle s (s.removeAt k i location evict) := by
  obtain ⟨operations, chain, items, _, _, _, nextItem, _, _⟩ := removeAt_same s k i location evict
  refine idle_frame operations chain nextItem ?_ ?_
  · intro j _
    simp [items]
  · intro l j inside
    rw [entry_removeAt stored located] at inside
    split at inside
    · cases inside
    · exact inside

/-- What becomes of the entries after a join callback; a processed group is stored no longer. -/
theorem concludeJoin_entry {s : State K V} (stored : Stored s) {c i : Nat} (ilt : i < s.nextItem)
    (named : (s.items i).key = (s.calls c).key) (processed : Bool) :
    (∀ k j, (s.concludeJoin c i processed).entry k = some j → s.entry k = some j) ∧
      (processed = true → (s.concludeJoin c i processed).entry (s.calls c).key ≠ some i) := by
  unfold State.concludeJoin
  split
  · rename_i missing
    exact ⟨fun _ _ => id, fun _ => (locate_eq_none stored _ _).mp missing⟩
  · rename_i location located
    split
    · have cancelled := stored_armsOnly stored (cancelDeadline_armsOnly s i)
      have removed := entry_removeAt (s := s.cancelDeadline i) cancelled located false
      refine ⟨?_, ?_⟩
      · intro k j inside
        rw [removed] at inside
        split at inside
        · cases inside
        · exact inside
      · intro _ inside
        rw [removed, if_pos rfl] at inside
        cases inside
    · rename_i unprocessed
      refine ⟨?_, fun done => absurd done unprocessed⟩
      split
      · intro k j inside
        have only := renew_armsOnly location ilt named
        rw [entry_frame only.current only.previous, entry_republish stored located] at inside
        exact inside
      · exact fun _ _ => id

theorem phases_continueJoin {s : State K V} (wired : Wired s) (h : Phases s) {o c : Nat}
    {processed : Bool} (lt : o < s.chain.next) (body : (s.operations o).body = .join c) :
    Phases (s.continueJoin o c (s.chain.lane o) processed) := by
  have ilt := wired.lane_item lt
  have named : ((s.setProcessed (s.chain.lane o) processed).items (s.chain.lane o)).key =
      (s.calls c).key := by
    simpa [State.setProcessed, State.setItem] using (wired.join_body lt body).2
  have quiet := quiet_concludeJoin (s := s.setProcessed (s.chain.lane o) processed) ilt named processed
  have origins := origins_concludeJoin (s := s.setProcessed (s.chain.lane o) processed) ilt named
    processed
  have marked := wired_setProcessed wired (s.chain.lane o) processed
  obtain ⟨shrinks, gone⟩ := concludeJoin_entry marked.stored ilt named processed
  have item : ∀ i, i < s.nextItem →
      ((s.continueJoin o c (s.chain.lane o) processed).items i).key = (s.items i).key ∧
        ((s.continueJoin o c (s.chain.lane o) processed).items i).processed =
          if i = s.chain.lane o then processed else (s.items i).processed := by
    intro i old
    have kept := quiet.item (i := i) old
    rw [setProcessed_item] at kept
    exact ⟨kept.1, kept.2.2⟩
  have status : ∀ p, p < s.chain.next → p ≠ o →
      (s.continueJoin o c (s.chain.lane o) processed).chain.status p = s.chain.status p := by
    intro p plt other
    have kept : ((s.setProcessed (s.chain.lane o) processed).concludeJoin c (s.chain.lane o)
        processed).chain.status p = s.chain.status p := quiet.keeps.status plt
    simpa [State.continueJoin, State.settleJoin, State.settle, State.setPhase, Chain.settle,
      update_of_ne other] using kept
  have settled : (s.continueJoin o c (s.chain.lane o) processed).chain.status o = .settled := by
    simp [State.continueJoin, State.settleJoin, State.settle, State.setPhase, Chain.settle]
  constructor
  · intro p plt running
    have other : p ≠ o := by
      rintro rfl
      rw [settled] at running
      cases running
    by_cases old : p < s.chain.next
    · rw [status p old other] at running
      have kept : (s.continueJoin o c (s.chain.lane o) processed).operations p = s.operations p :=
        quiet.keeps.operation (o := p) old
      rw [kept]
      exact h.staged old running
    · have waiting := (quiet.waiting (o := p) (Nat.le_of_not_lt old) plt).1
      simp only [State.continueJoin, State.settleJoin, State.settle, State.setPhase, Chain.settle,
        update_of_ne other] at running
      rw [waiting] at running
      cases running
  · intro i ilt' done
    have old : i < s.nextItem := origins.nextItem ▸ ilt'
    by_cases here : i = s.chain.lane o
    · refine ⟨o, Nat.lt_of_lt_of_le lt quiet.keeps.next_le, ?_, by simp [settled]⟩
      rw [here]
      exact quiet.keeps.lane (o := o) lt
    · rw [(item i old).2, if_neg here] at done
      obtain ⟨p, plt, lane, begun⟩ := h.worked old done
      have other : p ≠ o := by
        rintro rfl
        exact here lane.symm
      refine ⟨p, Nat.lt_of_lt_of_le plt quiet.keeps.next_le, ?_, by rwa [status p plt other]⟩
      exact (quiet.keeps.lane (o := p) plt).trans lane
  · intro i ilt' done inside
    have old : i < s.nextItem := origins.nextItem ▸ ilt'
    rw [(item i old).1] at inside
    by_cases here : i = s.chain.lane o
    · rw [(item i old).2, if_pos here] at done
      rw [here, (wired.join_body lt body).2] at inside
      exact absurd inside (gone done)
    · rw [(item i old).2, if_neg here] at done
      obtain ⟨p, a, plt, lane, running, pbody⟩ := h.closing old done (shrinks _ _ inside)
      have other : p ≠ o := by
        rintro rfl
        exact here lane.symm
      refine ⟨p, a, Nat.lt_of_lt_of_le plt quiet.keeps.next_le, ?_, by rwa [status p plt other], ?_⟩
      · exact (quiet.keeps.lane (o := p) plt).trans lane
      · exact (congrArg Operation.body (quiet.keeps.operation (o := p) plt)).trans pbody

theorem phases_continueExpire {s : State K V} (wired : Wired s) (h : Phases s) {o a : Nat}
    (lt : o < s.chain.next) (body : (s.operations o).body = .expire a) :
    Phases (s.continueExpire o a (s.chain.lane o)) := by
  obtain ⟨alt, item⟩ := wired.expire_body lt body
  have named : (s.items (s.chain.lane o)).key = (s.arms a).key := by
    rw [← item]
    exact (wired.arm_item alt).2
  unfold State.continueExpire State.concludeExpire
  split
  · rename_i missing
    refine phases_settle h lt ?_
    intro _ _ _
    rw [named]
    exact (locate_eq_none wired.stored _ _).mp missing
  · rename_i location located
    have removed := phases_idle h (idle_removeAt wired.stored located true)
    obtain ⟨operations, chain, items, _⟩ := removeAt_same s (s.arms a).key (s.chain.lane o) location true
    refine phases_settle removed (by rw [chain]; exact lt) ?_
    intro _ _ _
    rw [chain, items, named, entry_removeAt wired.stored located, if_pos rfl]
    simp

theorem phases_startJoin {s : State K V} (wired : Wired s) (h : Phases s) {o c : Nat}
    (ready : s.chain.ready o = true) :
    Phases (s.startJoin o c (s.chain.lane o)) := by
  obtain ⟨lt, waiting, _⟩ := (Chain.ready_iff _ _).mp ready
  have settled : Phases (s.settle o) := phases_settle h lt (by simp [waiting])
  have phase : ∀ (u : State K V) (result : OperationResult), Idle u (u.setPhase c (.resuming result)) :=
    fun _ _ => idle_frame rfl rfl rfl (fun _ _ => ⟨rfl, rfl⟩) (fun _ _ => id)
  have written : ∀ (u : State K V) values, Idle u (u.setValues (s.chain.lane o) values) := by
    intro u values
    refine idle_frame rfl rfl rfl ?_ (fun _ _ => id)
    intro i _
    obtain ⟨v, eq⟩ := setValues_item u (s.chain.lane o) values i
    simp [eq]
  unfold State.startJoin
  split
  · rw [State.settleJoin, begin_settle]
    exact phases_idle settled (phase _ _)
  · split
    · have padded := phases_idle settled (written (s.settle o) (State.padValues
        (s.items (s.chain.lane o)).values (s.calls c).index))
      have commute : ((s.begin o).setValues (s.chain.lane o) (State.padValues
          (s.items (s.chain.lane o)).values (s.calls c).index)).settle o = (s.settle o).setValues
          (s.chain.lane o) (State.padValues (s.items (s.chain.lane o)).values (s.calls c).index) :=
        begin_settle (s.setValues _ _) o
      rw [State.settleJoin, commute]
      exact phases_idle padded (phase _ _)
    · refine phases_begun wired h ready rfl rfl rfl rfl rfl ?_ ?_ (fun _ => rfl)
      · intro i
        obtain ⟨v, eq⟩ := setValues_item s (s.chain.lane o) (State.pushValue
          (s.items (s.chain.lane o)).values (s.calls c).index (s.calls c).value) i
        exact (congrArg Item.key eq).trans rfl
      · intro i _
        obtain ⟨v, eq⟩ := setValues_item s (s.chain.lane o) (State.pushValue
          (s.items (s.chain.lane o)).values (s.calls c).index (s.calls c).value) i
        exact (congrArg Item.processed eq).trans rfl

theorem phases_startExpire {s : State K V} (wired : Wired s) (h : Phases s) {o a : Nat}
    (ready : s.chain.ready o = true) (body : (s.operations o).body = .expire a) :
    Phases (s.startExpire o a (s.chain.lane o)) := by
  obtain ⟨lt, waiting, _⟩ := (Chain.ready_iff _ _).mp ready
  have settled : Phases (s.settle o) := phases_settle h lt (by simp [waiting])
  unfold State.startExpire
  split
  · rw [begin_settle]
    exact settled
  · split
    · have only := rearm_armsOnly wired lt body
      have quiet := quiet_settle (quiet_armsOnly only) lt
      rw [begin_settle] at quiet
      refine phases_idle settled (idle_quiet quiet only.nextItem ?_)
      intro k i inside
      have same : ((s.begin o).rearm a (s.chain.lane o)).entry k = s.entry k :=
        entry_frame (s := s) only.current only.previous k
      exact same ▸ inside
    · refine phases_begun wired h ready rfl rfl rfl rfl rfl ?_ ?_ (fun _ => rfl)
      · intro i
        exact (congrArg Item.key (setProcessed_item (s.begin o) (s.chain.lane o) true i)).trans rfl
      · rintro i (elsewhere | never)
        · have eq := congrArg Item.processed (setProcessed_item (s.begin o) (s.chain.lane o) true i)
          rw [if_neg elsewhere] at eq
          exact eq.trans rfl
        · exact absurd body (never a)

theorem phases_iterate {s : State K V} (h : Phases s) (c : Nat) : Phases (s.iterate c) := by
  have joins : ∀ (u : State K V) i, Idle u (u.joinItem c i) :=
    fun u i => idle_quiet (quiet_joinItem u c i) rfl (fun _ _ => id)
  unfold State.iterate
  split
  · exact phases_idle h (joins s _)
  · split
    · unfold State.leave
      split <;> exact phases_idle h (idle_frame rfl rfl rfl (fun _ _ => ⟨rfl, rfl⟩) (fun _ _ => id))
    · refine phases_idle ?_ (joins (s.createItem c) s.nextItem)
      have inserted := phases_insertItem h c
      unfold State.createItem
      split
      · exact phases_idle inserted (idle_armsOnly (armDeadline_armsOnly (s.insertItem c) _
          (Nat.lt_succ_self _) (by simp [State.insertItem, State.newItem])))
      · exact inserted

theorem phases_step {s t : State K V} {a : Action K V} (wired : Wired s) (h : Phases s)
    (next : step s a = some t) : Phases t := by
  have same : ∀ {u : State K V}, u.workings = s.workings → (∀ k i, u.entry k = some i → s.entry k = some i) →
      Phases u := by
    intro u workings entry
    obtain ⟨operations, chain, items, nextItem, -, -⟩ := workings_same workings
    refine phases_idle h (idle_frame operations chain nextItem ?_ entry)
    intro i _
    simp [items]
  cases a with
  | joinValue context key index value =>
    cases next
    rcases joinValue_cases s context key index value with eq | ⟨slot, _, eq | ⟨active, eq⟩⟩ <;> rw [eq]
    · exact same rfl (fun _ _ => id)
    · exact same rfl (fun _ _ => id)
    · refine phases_iterate ?_ s.nextCall
      exact same rfl (fun _ _ => id)
  | enter c =>
    obtain ⟨_, _, _, rfl⟩ := enter_cases next
    refine phases_iterate ?_ c
    exact same rfl (fun _ _ => id)
  | startOperation o =>
    obtain ⟨ready, ⟨c, body, rfl⟩ | ⟨b, body, rfl⟩⟩ := startOperation_cases next
    · exact phases_startJoin wired h ready
    · exact phases_startExpire wired h ready body
  | callbackReturns o outcome =>
    obtain ⟨lt, running, _, ⟨c, body, rfl⟩ | ⟨b, body, rfl⟩⟩ := callbackReturns_cases next <;>
    · refine ⟨?_, h.worked, ?_⟩
      · intro p plt prunning
        by_cases here : p = o
        · subst p
          simp [State.record, State.setStage]
        · simpa [State.record, State.setStage, update_of_ne here] using h.staged plt prunning
      · intro i ilt done inside
        obtain ⟨p, a, plt, lane, prunning, pbody⟩ := h.closing ilt done inside
        exact ⟨p, a, plt, lane, prunning, (update_body _ p).trans pbody⟩
  | continueOperation o =>
    obtain ⟨lt, running, ⟨c, processed, body, _, rfl⟩ | ⟨c, body, _, rfl⟩ | ⟨b, _, body, _, rfl⟩⟩ :=
      continueOperation_cases next
    · exact phases_continueJoin wired h lt body
    · refine phases_idle (phases_settle h lt ?_) (idle_frame rfl rfl rfl (fun _ _ => ⟨rfl, rfl⟩)
        (fun _ _ => id))
      intro a _ expires
      rw [body] at expires
      cases expires
    · exact phases_continueExpire wired h lt body
  | resume c =>
    obtain ⟨_, ⟨_, rfl⟩ | ⟨_, rfl⟩ | ⟨_, _, rfl⟩⟩ := resume_cases next
    · unfold State.leave
      split <;> exact same rfl (fun _ _ => id)
    · exact phases_iterate h c
    · unfold State.leave
      split <;> exact same rfl (fun _ _ => id)
  | fire b =>
    obtain ⟨lt, _, rfl⟩ := fire_cases next
    exact phases_idle h (idle_armsOnly
      (armsOnly_trans (disarm_armsOnly s b) (expire_armsOnly (s.disarm b) lt)))
  | _ =>
    obtain ⟨objects, _⟩ := outside_step next trivial
    apply same (objects_workings objects)
    intro k i inside
    rw [← outside_entry next trivial k]
    exact inside

theorem phases_reachable [Inhabited K] [Inhabited V] {ok : State K V → Action K V → Prop}
    {s : State K V} (reach : ReachableWith ok s) : Phases s := by
  obtain ⟨s₀, start, run⟩ := reach
  have fresh : Phases s₀ := by
    obtain ⟨ttlMs, renewTTL, metricsEnabled, now, contextNow, aborted, rfl⟩ := start
    constructor <;> simp [initial, Chain.empty]
  have all := Transitions.steps_invariant (fun s => Wired s ∧ Phases s) ?_ run
    ⟨wired_initial start, fresh⟩
  · exact all.2
  · rintro s a t ⟨wired, phases⟩ _ next
    exact ⟨wired_step wired next, phases_step wired phases next⟩

end Phases

end JoinStorage
