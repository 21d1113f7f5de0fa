import TsServiceLib.Store.JoinOpening

/-!
What happens around one call while no other call makes a pass. Operations come
closer to their end, the map only loses entries, and the call learns the result
of the operation it awaits: that is all the progress of its loop depends on.
-/
namespace JoinStorage
open OrderedMaps TailChain Numbers Function

section Service
variable {K V : Type}

/-- The steps an operation still has before it. -/
def State.load (s : State K V) (o : Nat) : Nat :=
  match s.chain.status o, (s.operations o).stage with
  | .waiting, _ => 3
  | .running, .inCallback => 2
  | .running, _ => 1
  | .settled, _ => 0

theorem load_same {s t : State K V} {o : Nat} (status : t.chain.status o = s.chain.status o)
    (operation : t.operations o = s.operations o) : t.load o = s.load o := by
  simp [State.load, status, operation]

theorem load_settled {s : State K V} {o : Nat} : s.load o = 0 ↔ s.chain.status o = .settled := by
  unfold State.load
  split <;> simp_all

theorem load_waiting {s : State K V} {o : Nat} : s.load o = 3 ↔ s.chain.status o = .waiting := by
  unfold State.load
  split <;> simp_all

theorem load_running_pos {s : State K V} {o : Nat} (running : s.chain.status o = .running) :
    0 < s.load o := by
  refine Nat.pos_of_ne_zero ?_
  intro none_left
  rw [load_settled.mp none_left] at running
  cases running

theorem load_le_three (s : State K V) (o : Nat) : s.load o ≤ 3 := by
  unfold State.load
  split <;> omega

variable [DecidableEq K]

/- Everything that can happen between two passes of the call `c` when no other
   call makes a pass: operations come closer to their end, keys lose entries,
   only a running join operation moves a deadline, and `c` learns its result. -/
structure Serves (c : Nat) (s t : State K V) : Prop where
  next_le : s.chain.next ≤ t.chain.next
  lane : ∀ {o}, o < s.chain.next → t.chain.lane o = s.chain.lane o
  body : ∀ {o}, o < s.chain.next → (t.operations o).body = (s.operations o).body
  load : ∀ {o}, o < s.chain.next → t.load o ≤ s.load o
  fresh : ∀ {o}, s.chain.next ≤ o → o < t.chain.next → t.chain.status o = .waiting
  began : ∀ {o d}, o < s.chain.next → (s.operations o).body = .join d →
    t.chain.status o = .running → s.chain.status o = .running ∨
      (s.chain.ready o = true ∧ s.refuses d (s.chain.lane o) = false)
  entry : ∀ k i, t.entry k = some i → s.entry k = some i
  deadline : ∀ {i}, i < s.nextItem → (t.items i).deadline = (s.items i).deadline ∨
    ∃ o d, o < s.chain.next ∧ s.chain.lane o = i ∧ s.chain.status o = .running ∧
      (s.operations o).body = .join d
  now : s.now ≤ t.now
  call : t.calls c = s.calls c ∨ ∃ o result, (s.calls c).phase = .awaiting o ∧
    t.calls c = { s.calls c with phase := .resuming result } ∧
    (result = .value false → s.chain.ready o = true ∧ s.refuses c (s.chain.lane o) = true ∧
      FirstFindsLive s o)

theorem serves_quiet {c : Nat} {s t : State K V} (quiet : Quiet s t)
    (entry : ∀ k i, t.entry k = some i → s.entry k = some i)
    (deadline : ∀ i, i < s.nextItem → (t.items i).deadline = (s.items i).deadline)
    (now : s.now ≤ t.now) (call : t.calls c = s.calls c) : Serves c s t where
  next_le := quiet.keeps.next_le
  lane := quiet.keeps.lane
  body := fun lt => by rw [quiet.keeps.operation lt]
  load := fun lt => Nat.le_of_eq (load_same (quiet.keeps.status lt) (quiet.keeps.operation lt))
  fresh := fun lo hi => (quiet.waiting lo hi).1
  began := fun lt _ running => Or.inl ((quiet.keeps.status lt).symm.trans running)
  entry := entry
  deadline := fun lt => Or.inl (deadline _ lt)
  now := now
  call := Or.inl call

theorem serves_armsOnly {c : Nat} {s t : State K V} (only : ArmsOnly s t) : Serves c s t := by
  refine serves_quiet (quiet_armsOnly only) ?_ ?_ (le_of_eq only.now.symm) (by rw [only.calls])
  · intro k i inside
    exact entry_frame only.current only.previous k ▸ inside
  · intro i _
    obtain ⟨cancel, eq⟩ := only.item i
    simp [eq]

/- One operation moves on; the others, the map and the clock stay. -/
theorem serves_moved {c o : Nat} {s t : State K V} (next : t.chain.next = s.chain.next)
    (lane : t.chain.lane = s.chain.lane)
    (body : ∀ p, (t.operations p).body = (s.operations p).body)
    (others : ∀ p, p ≠ o → t.chain.status p = s.chain.status p ∧ t.operations p = s.operations p)
    (load : t.load o ≤ s.load o)
    (began : ∀ d, (s.operations o).body = .join d → t.chain.status o = .running →
      s.chain.status o = .running ∨ (s.chain.ready o = true ∧ s.refuses d (s.chain.lane o) = false))
    (entry : ∀ k, t.entry k = s.entry k)
    (deadline : ∀ i, (t.items i).deadline = (s.items i).deadline) (now : t.now = s.now)
    (call : t.calls c = s.calls c ∨ ∃ o result, (s.calls c).phase = .awaiting o ∧
      t.calls c = { s.calls c with phase := .resuming result } ∧
      (result = .value false → s.chain.ready o = true ∧ s.refuses c (s.chain.lane o) = true ∧
        FirstFindsLive s o)) :
    Serves c s t where
  next_le := le_of_eq next.symm
  lane := fun _ => by rw [lane]
  body := fun _ => body _
  load := by
    intro p _
    by_cases same : p = o
    · subst p
      exact load
    · exact Nat.le_of_eq (load_same (others p same).1 (others p same).2)
  fresh := by
    intro p lo hi
    omega
  began := by
    intro p d _ pbody running
    by_cases same : p = o
    · subst p
      exact began d pbody running
    · exact Or.inl ((others p same).1.symm.trans running)
  entry := fun k i inside => entry k ▸ inside
  deadline := fun _ => Or.inl (deadline _)
  now := le_of_eq now.symm
  call := call

omit [DecidableEq K] in
theorem settleJoin_call (s : State K V) (o d c : Nat) (result : OperationResult) :
    (s.settleJoin o d result).calls c =
      if c = d then { s.calls c with phase := .resuming result } else s.calls c := by
  by_cases same : c = d
  · subst c
    simp [State.settleJoin, State.settle, State.setPhase]
  · simp [State.settleJoin, State.settle, State.setPhase, same]

theorem serves_startJoin {s : State K V} (wired : Wired s) (c : Nat) {o d : Nat}
    (ready : s.chain.ready o = true) (body : (s.operations o).body = .join d)
    (live : FirstFindsLive s o) : Serves c s (s.startJoin o d (s.chain.lane o)) ∧
      (s.startJoin o d (s.chain.lane o)).load o < s.load o := by
  obtain ⟨lt, waiting, _⟩ := (Chain.ready_iff _ _).mp ready
  have full : s.load o = 3 := load_waiting.mpr waiting
  have pending : (s.calls d).phase = .awaiting o := wired.pending lt body (by simp [waiting])
  have begun : ∀ p, p ≠ o → (s.begin o).chain.status p = s.chain.status p := by
    intro p other
    simp [State.begin, Chain.start, update_of_ne other]
  -- both ways to settle without an append end alike
  have settles : ∀ {u : State K V} {result : OperationResult}, u.chain = (s.begin o).chain →
      u.operations = s.operations → (∀ k, u.entry k = s.entry k) →
      (∀ i, (u.items i).deadline = (s.items i).deadline) → u.now = s.now → u.calls = s.calls →
      (result = .value false → s.refuses d (s.chain.lane o) = true) →
      Serves c s (u.settleJoin o d result) ∧ (u.settleJoin o d result).load o < s.load o := by
    intro u result chain operations entry deadline now calls refused
    have settled : (u.settleJoin o d result).load o = 0 :=
      load_settled.mpr (by simp [State.settleJoin, State.settle, State.setPhase, Chain.settle])
    refine ⟨?_, by omega⟩
    refine serves_moved (o := o) ?_ ?_ ?_ ?_ (by omega) ?_ entry deadline now ?_
    · simp [State.settleJoin, State.settle, State.setPhase, Chain.settle, chain, State.begin,
        Chain.start]
    · simp [State.settleJoin, State.settle, State.setPhase, Chain.settle, chain, State.begin,
        Chain.start]
    · intro p
      simp [State.settleJoin, State.settle, State.setPhase, operations]
    · intro p other
      simp [State.settleJoin, State.settle, State.setPhase, Chain.settle, update_of_ne other, chain,
        begun p other, operations]
    · intro e _ running
      rw [load_settled.mp settled] at running
      cases running
    · rw [settleJoin_call, calls]
      split
      · rename_i same
        subst same
        exact Or.inr ⟨o, result, pending, rfl, fun refusal => ⟨ready, refused refusal, live⟩⟩
      · exact Or.inl rfl
  unfold State.startJoin
  split
  · rename_i refused
    exact settles rfl rfl (fun _ => rfl) (fun _ => rfl) rfl rfl (fun _ => refused)
  · rename_i accepts
    split
    · refine settles rfl rfl (fun _ => rfl) ?_ rfl rfl (by simp)
      intro i
      obtain ⟨v, eq⟩ := setValues_item (s.begin o) (s.chain.lane o) (State.padValues
        (s.items (s.chain.lane o)).values (s.calls d).index) i
      exact (congrArg Item.deadline eq).trans rfl
    · have inside : (s.appendValue o d (s.chain.lane o)).load o = 2 := by
        simp [State.load, State.appendValue, State.record, State.setStage, State.setValues,
          State.setItem, State.begin, Chain.start]
      refine ⟨?_, by omega⟩
      refine serves_moved (o := o) rfl rfl (fun p => update_body _ p) ?_ (by omega) ?_
        (fun _ => rfl) ?_ rfl (Or.inl rfl)
      · intro p other
        refine ⟨begun p other, ?_⟩
        simp [State.appendValue, State.record, State.setStage, State.setValues, State.setItem,
          State.begin, update_of_ne other]
      · intro e joins _
        rw [body] at joins
        cases joins
        exact Or.inr ⟨ready, by simpa using accepts⟩
      · intro i
        obtain ⟨v, eq⟩ := setValues_item (s.begin o) (s.chain.lane o) (State.pushValue
          (s.items (s.chain.lane o)).values (s.calls d).index (s.calls d).value) i
        exact (congrArg Item.deadline eq).trans rfl

theorem serves_startExpire {s : State K V} (wired : Wired s) (c : Nat) {o a : Nat}
    (ready : s.chain.ready o = true) (body : (s.operations o).body = .expire a) :
    Serves c s (s.startExpire o a (s.chain.lane o)) ∧
      (s.startExpire o a (s.chain.lane o)).load o < s.load o := by
  obtain ⟨lt, waiting, _⟩ := (Chain.ready_iff _ _).mp ready
  have full : s.load o = 3 := load_waiting.mpr waiting
  have notJoin : ∀ d, (s.operations o).body = .join d → False := by
    intro d joins
    rw [body] at joins
    cases joins
  unfold State.startExpire
  split
  · have settled : ((s.begin o).settle o).load o = 0 :=
      load_settled.mpr (by simp [State.settle, Chain.settle])
    refine ⟨?_, by omega⟩
    refine serves_moved (o := o) rfl rfl (fun _ => rfl) ?_ (by omega)
      (fun d joins => (notJoin d joins).elim) (fun _ => rfl) (fun _ => rfl) rfl (Or.inl rfl)
    intro p other
    simp [State.begin, State.settle, Chain.start, Chain.settle, update_of_ne other]
  · split
    · have only := rearm_armsOnly wired lt body
      have settled : (((s.begin o).rearm a (s.chain.lane o)).settle o).load o = 0 :=
        load_settled.mpr (by simp [State.settle, Chain.settle])
      have started := serves_armsOnly (c := c) only
      have others : ∀ p, p < s.chain.next → p ≠ o →
          (((s.begin o).rearm a (s.chain.lane o)).settle o).chain.status p = s.chain.status p := by
        intro p plt other
        have kept := only.status (o := p) plt
        simpa [State.begin, State.settle, Chain.start, Chain.settle, update_of_ne other] using kept
      refine ⟨?_, by omega⟩
      constructor
      · exact only.next_le
      · exact only.lane
      · intro p plt
        exact congrArg Operation.body (only.operation (o := p) plt)
      · intro p plt
        by_cases same : p = o
        · subst p
          omega
        · exact Nat.le_of_eq (load_same (others p plt same) (only.operation (o := p) plt))
      · intro p lo hi
        have other : p ≠ o := by
          rintro rfl
          omega
        simpa [State.settle, Chain.settle, update_of_ne other] using started.fresh (o := p) lo hi
      · intro p d plt joins running
        have other : p ≠ o := by
          rintro rfl
          exact notJoin d joins
        exact Or.inl ((others p plt other).symm.trans running)
      · exact started.entry
      · intro i ilt
        obtain ⟨cancel, eq⟩ := only.item i
        exact Or.inl ((congrArg Item.deadline eq).trans rfl)
      · exact started.now
      · exact Or.inl (congrFun only.calls c)
    · have inside : (s.enterDeadline o (s.chain.lane o)).load o = 2 := by
        simp [State.load, State.enterDeadline, State.record, State.setStage, State.setProcessed,
          State.setItem, State.begin, Chain.start]
      refine ⟨?_, by omega⟩
      refine serves_moved (o := o) rfl rfl (fun p => update_body _ p) ?_ (by omega)
        (fun d joins => (notJoin d joins).elim) (fun _ => rfl) ?_ rfl (Or.inl rfl)
      · intro p other
        simp [State.enterDeadline, State.record, State.setStage, State.setProcessed, State.setItem,
          State.begin, Chain.start, update_of_ne other]
      · intro i
        exact (congrArg Item.deadline (setProcessed_item (s.begin o) (s.chain.lane o) true i)).trans rfl

theorem serves_returned {s t : State K V} (c : Nat) {o : Nat} {outcome : CallbackOutcome}
    (next : s.callbackReturns o outcome = some t) : Serves c s t ∧ t.load o < s.load o := by
  obtain ⟨_, running, inside, ⟨d, _, rfl⟩ | ⟨b, _, rfl⟩⟩ := callbackReturns_cases next <;>
  · have before : s.load o = 2 := by simp [State.load, running, inside]
    have after : ∀ event, ((s.setStage o (.returned outcome)).record event).load o = 1 := by
      intro event
      simp [State.load, State.record, State.setStage, running]
    refine ⟨?_, by rw [after]; omega⟩
    refine serves_moved (o := o) rfl rfl (fun p => update_body _ p) ?_ (by rw [after]; omega)
      (fun _ _ runs => Or.inl runs) (fun _ => rfl) (fun _ => rfl) rfl (Or.inl rfl)
    intro p other
    simp [State.record, State.setStage, update_of_ne other]

theorem concludeJoin_deadline {s : State K V} {c i : Nat} (ilt : i < s.nextItem)
    (named : (s.items i).key = (s.calls c).key) (processed : Bool) :
    (∀ j, j ≠ i → ((s.concludeJoin c i processed).items j).deadline = (s.items j).deadline) ∧
      (s.concludeJoin c i processed).now = s.now := by
  have armed : ∀ {u v : State K V}, ArmsOnly u v → ∀ j, (v.items j).deadline = (u.items j).deadline := by
    intro u v only j
    obtain ⟨cancel, eq⟩ := only.item j
    simp [eq]
  unfold State.concludeJoin
  split
  · exact ⟨fun _ _ => rfl, rfl⟩
  · rename_i location _
    split
    · refine ⟨?_, ?_⟩
      · intro j _
        rw [(removeAt_same (s.cancelDeadline i) (s.calls c).key i location false).2.2.1]
        exact armed (cancelDeadline_armsOnly s i) j
      · unfold State.removeAt
        split <;> rfl
    · split
      · have only := renew_armsOnly location ilt named
        refine ⟨?_, only.now⟩
        intro j other
        rw [armed only j]
        simp [State.republish, update_of_ne other]
      · exact ⟨fun _ _ => rfl, rfl⟩

theorem serves_continueJoin {s : State K V} (wired : Wired s) (c : Nat) {o d : Nat}
    {processed : Bool} (lt : o < s.chain.next) (running : s.chain.status o = .running)
    (body : (s.operations o).body = .join d) :
    Serves c s (s.continueJoin o d (s.chain.lane o) processed) ∧
      (s.continueJoin o d (s.chain.lane o) processed).load o < s.load o := by
  have ilt := wired.lane_item lt
  have named : ((s.setProcessed (s.chain.lane o) processed).items (s.chain.lane o)).key =
      (s.calls d).key := by
    simpa [State.setProcessed, State.setItem] using (wired.join_body lt body).2
  have quiet := quiet_concludeJoin (s := s.setProcessed (s.chain.lane o) processed) ilt named processed
  have marked := wired_setProcessed wired (s.chain.lane o) processed
  obtain ⟨shrinks, _⟩ := concludeJoin_entry marked.stored ilt named processed
  obtain ⟨deadlines, now⟩ := concludeJoin_deadline (s := s.setProcessed (s.chain.lane o) processed)
    ilt named processed
  obtain ⟨calls, _⟩ := concludeJoin_calls (s := s.setProcessed (s.chain.lane o) processed)
    ilt named processed
  have settled : (s.continueJoin o d (s.chain.lane o) processed).load o = 0 := load_settled.mpr (by
    simp [State.continueJoin, State.settleJoin, State.settle, State.setPhase, Chain.settle])
  have loaded := load_running_pos running
  have others : ∀ p, p < s.chain.next → p ≠ o →
      (s.continueJoin o d (s.chain.lane o) processed).chain.status p = s.chain.status p := by
    intro p plt other
    have kept : ((s.setProcessed (s.chain.lane o) processed).concludeJoin d (s.chain.lane o)
        processed).chain.status p = s.chain.status p := quiet.keeps.status plt
    simpa [State.continueJoin, State.settleJoin, State.settle, State.setPhase, Chain.settle,
      update_of_ne other] using kept
  refine ⟨?_, by omega⟩
  constructor
  · exact quiet.keeps.next_le
  · exact quiet.keeps.lane
  · intro p plt
    exact congrArg Operation.body (quiet.keeps.operation (o := p) plt)
  · intro p plt
    by_cases same : p = o
    · subst p
      omega
    · exact Nat.le_of_eq (load_same (others p plt same) (quiet.keeps.operation (o := p) plt))
  · intro p lo hi
    have other : p ≠ o := by
      rintro rfl
      omega
    have waiting := (quiet.waiting (o := p) lo hi).1
    simpa [State.continueJoin, State.settleJoin, State.settle, State.setPhase, Chain.settle,
      update_of_ne other] using waiting
  · intro p e plt _ runs
    by_cases same : p = o
    · subst p
      exact Or.inl running
    · exact Or.inl ((others p plt same).symm.trans runs)
  · exact shrinks
  · intro i _
    by_cases here : i = s.chain.lane o
    · exact Or.inr ⟨o, d, lt, here.symm, running, body⟩
    · refine Or.inl ((deadlines i here).trans ?_)
      exact (congrArg Item.deadline (setProcessed_item s (s.chain.lane o) processed i)).trans rfl
  · exact le_of_eq now.symm
  · have pending := wired.pending lt body (by simp [running])
    unfold State.continueJoin
    rw [settleJoin_call, calls]
    split
    · rename_i same
      subst same
      exact Or.inr ⟨o, .value true, pending, rfl, fun refusal => by cases refusal⟩
    · exact Or.inl rfl

theorem serves_continueOperation {s t : State K V} (wired : Wired s) (c : Nat) {o : Nat}
    (next : s.continueOperation o = some t) : Serves c s t ∧ t.load o < s.load o := by
  obtain ⟨lt, running, ⟨d, processed, body, _, rfl⟩ | ⟨d, body, _, rfl⟩ | ⟨b, _, body, _, rfl⟩⟩ :=
    continueOperation_cases next
  · exact serves_continueJoin wired c lt running body
  · have settled : (s.settleJoin o d (.rejected .callbackFailed)).load o = 0 := load_settled.mpr (by
      simp [State.settleJoin, State.settle, State.setPhase, Chain.settle])
    have loaded := load_running_pos running
    refine ⟨?_, by omega⟩
    refine serves_moved (o := o) rfl rfl (fun _ => rfl) ?_ (by omega) (fun _ _ _ => Or.inl running)
      (fun _ => rfl) (fun _ => rfl) rfl ?_
    · intro p other
      simp [State.settleJoin, State.settle, State.setPhase, Chain.settle, update_of_ne other]
    · rw [settleJoin_call]
      split
      · rename_i same
        subst same
        exact Or.inr ⟨o, .rejected .callbackFailed, wired.pending lt body (by simp [running]), rfl,
          fun refusal => by cases refusal⟩
      · exact Or.inl rfl
  · have settled : (s.continueExpire o b (s.chain.lane o)).load o = 0 := load_settled.mpr (by
      simp [State.continueExpire, State.settle, Chain.settle])
    have loaded := load_running_pos running
    refine ⟨?_, by omega⟩
    obtain ⟨alt, item⟩ := wired.expire_body lt body
    have concluded : Serves c s (s.concludeExpire b (s.chain.lane o)) ∧
        (s.concludeExpire b (s.chain.lane o)).chain = s.chain ∧
        (s.concludeExpire b (s.chain.lane o)).operations = s.operations := by
      unfold State.concludeExpire
      split
      · exact ⟨serves_quiet (quiet_refl s) (fun _ _ => id) (fun _ _ => rfl) (le_refl _) rfl, rfl, rfl⟩
      · rename_i location located
        obtain ⟨operations, chain, items, calls, _⟩ :=
          removeAt_same s (s.arms b).key (s.chain.lane o) location true
        refine ⟨serves_quiet (quiet_removeAt _ _ _ _ _)
          (idle_removeAt wired.stored located true).entry ?_ ?_ (by rw [calls]), chain, operations⟩
        · intro i _
          rw [items]
        · unfold State.removeAt
          split <;> exact le_refl _
    obtain ⟨served, chain, operations⟩ := concluded
    have others : ∀ p, p ≠ o → (s.continueExpire o b (s.chain.lane o)).chain.status p =
        s.chain.status p := by
      intro p other
      simp [State.continueExpire, State.settle, Chain.settle, update_of_ne other, chain]
    constructor
    · exact served.next_le
    · exact served.lane
    · exact served.body
    · intro p plt
      by_cases same : p = o
      · subst p
        omega
      · refine Nat.le_of_eq (load_same (others p same) ?_)
        exact congrFun operations p
    · intro p lo hi
      have hi' : p < s.chain.next := chain ▸ hi
      omega
    · intro p e plt joins runs
      by_cases same : p = o
      · subst p
        exact Or.inl running
      · exact Or.inl ((others p same).symm.trans runs)
    · exact served.entry
    · exact served.deadline
    · exact served.now
    · exact served.call

/-- Only the call itself makes passes. -/
def Alone (c : Nat) (s : State K V) : Action K V → Prop
  | .joinValue .. => False
  | .enter d => d = c
  | .resume d => d = c ∨ (s.calls d).phase ≠ .resuming (.value false)
  | _ => True

/-- The steps at the call's own disposal. -/
def OwnPass (c : Nat) : Action K V → Prop
  | .enter d => d = c
  | .resume d => d = c
  | _ => False

theorem outside_now {s t : State K V} {a : Action K V} (next : step s a = some t) (outside : a.Outside)
    (inTime : InTime s a) : s.now ≤ t.now := by
  cases a with
  | start =>
    cases next
    unfold State.start
    split <;> exact le_refl _
  | stop =>
    cases next
    unfold State.stop
    split <;> exact le_refl _
  | rotationTimer =>
    simp only [step] at next
    split at next
    · cases next
      unfold State.rotate
      split <;> exact le_refl _
    · cases next
  | clock now contextNow =>
    cases next
    exact inTime
  | abort signal =>
    cases next
    exact le_refl _
  | configure ttlMs renewTTL =>
    cases next
    exact le_refl _
  | _ => exact outside.elim

theorem serves_step {s t : State K V} {a : Action K V} (wired : Wired s) {c : Nat}
    (inTime : InTime s a) (alone : Alone c s a) (other : ¬ OwnPass c a)
    (next : step s a = some t) : Serves c s t := by
  cases a with
  | joinValue context key index value => exact alone.elim
  | enter d => exact absurd alone other
  | startOperation o =>
    obtain ⟨ready, ⟨d, body, rfl⟩ | ⟨b, body, rfl⟩⟩ := startOperation_cases next
    · exact (serves_startJoin wired c ready body inTime).1
    · exact (serves_startExpire wired c ready body).1
  | callbackReturns o outcome => exact (serves_returned c next).1
  | continueOperation o => exact (serves_continueOperation wired c next).1
  | resume d =>
    have leaves : ∀ phase, Serves c s (s.leave d phase) := by
      intro phase
      have calls := (leave_calls s d phase).1
      refine serves_quiet (quiet_leave s d phase) ?_ ?_ ?_ ?_
      · intro k i
        unfold State.leave
        split <;> exact id
      · intro i _
        unfold State.leave
        split <;> rfl
      · unfold State.leave
        split <;> exact le_refl _
      · rw [calls]
        exact update_of_ne (fun here => other here.symm) _ _
    obtain ⟨_, ⟨_, rfl⟩ | ⟨phase, rfl⟩ | ⟨_, _, rfl⟩⟩ := resume_cases next
    · exact leaves _
    · exact absurd phase (alone.resolve_left other)
    · exact leaves _
  | fire b =>
    obtain ⟨lt, _, rfl⟩ := fire_cases next
    exact serves_armsOnly
      (armsOnly_trans (disarm_armsOnly s b) (expire_armsOnly (s.disarm b) lt))
  | _ =>
    obtain ⟨objects, history⟩ := outside_step next trivial
    obtain ⟨-, -, items, -, -, -, calls, -⟩ := objects_same objects
    refine serves_quiet (quiet_frame objects history) ?_ ?_ (outside_now next trivial inTime) ?_
    · intro k i inside
      rw [← outside_entry next trivial k]
      exact inside
    · intro i _
      rw [items]
    · rw [calls]

end Service

end JoinStorage
