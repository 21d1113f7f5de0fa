import TsServiceLib.Store.JoinLedger

/-!
What a caller of the join storage is promised. How often a call has appended
its value can be read off its phase, so a call that returns has delivered its
value once and into one group; and the callbacks of a group come one after the
other, none of them after its terminal.
-/
namespace JoinStorage
open OrderedMaps TailChain Numbers Function

section Counting
variable {V : Type}

theorem appendCount_cons (c : Nat) (e : Event V) (history : List (Event V)) :
    appendCount c (e :: history) = appendCount c history + if e.appends c then 1 else 0 := by
  simp [appendCount, List.countP_cons]

theorem appendCount_pos {c : Nat} {history : List (Event V)} (pos : 0 < appendCount c history) :
    ∃ i j v d n, .appended c i j v d n ∈ history := by
  obtain ⟨e, mem, appends⟩ := List.countP_pos_iff.mp pos
  cases e with
  | appended d i j v deadline n =>
    simp only [Event.appends, decide_eq_true_eq] at appends
    subst d
    exact ⟨i, j, v, deadline, n, mem⟩
  | _ => cases appends

/-- The calls whose values stand in one slot of a group, oldest first. -/
def slotCallers (history : List (Event V)) (item index : Nat) : List Nat :=
  (history.filterMap fun
    | .appended c i j _ _ _ => if i = item ∧ j = index then some c else none
    | _ => none).reverse

theorem mem_slotCallers {history : List (Event V)} {item index c : Nat} :
    c ∈ slotCallers history item index ↔ ∃ v d n, .appended c item index v d n ∈ history := by
  rw [slotCallers, List.mem_reverse, List.mem_filterMap]
  constructor
  · rintro ⟨e, inside, eq⟩
    cases e with
    | appended d i j v deadline n =>
      simp only [Option.ite_none_right_eq_some, Option.some.injEq] at eq
      obtain ⟨⟨rfl, rfl⟩, rfl⟩ := eq
      exact ⟨v, deadline, n, inside⟩
    | _ => cases eq
  · rintro ⟨v, d, n, inside⟩
    exact ⟨_, inside, by simp⟩

theorem count_slotCallers (history : List (Event V)) (item index c : Nat) :
    (slotCallers history item index).count c ≤ appendCount c history := by
  simp only [slotCallers, List.count_reverse]
  induction history with
  | nil => simp
  | cons e history ih =>
    rw [appendCount_cons]
    cases e with
    | appended d i j v deadline n =>
      by_cases here : i = item ∧ j = index
      · simp only [List.filterMap_cons, here, and_self, ↓reduceIte, List.count_cons,
          Event.appends, decide_eq_true_eq, beq_iff_eq]
        omega
      · simp only [List.filterMap_cons, here, ↓reduceIte]
        omega
    | _ =>
      simp only [List.filterMap_cons]
      omega

theorem slotLog_callers {history : List (Event V)} {value : Nat → V}
    (own : ∀ {c i j v d} {n : Int}, .appended c i j v d n ∈ history → v = value c)
    (item index : Nat) :
    slotLog history item index = (slotCallers history item index).map value := by
  simp only [slotLog, slotCallers, List.map_reverse, List.map_filterMap, List.reverse_inj]
  refine List.filterMap_congr ?_
  intro e mem
  cases e with
  | appended c i j v d n =>
    by_cases here : i = item ∧ j = index
    · simp [slotEntry, here, own mem]
    · simp [slotEntry, here]
  | _ => rfl

end Counting

section Balance
variable {K V : Type}

/-- How often a call in this phase has appended its value. -/
def Phase.Owes (chain : Chain Nat) : Phase → Nat → Prop
  | .entering, n => n = 0
  | .awaiting o, n => n = if chain.status o = .waiting then 0 else 1
  | .resuming (.value joined), n => n = if joined then 1 else 0
  | .resuming (.rejected _), n => n ≤ 1
  | .returned, n => n = 1
  | .rejected _, n => n ≤ 1

def Balanced (s : State K V) : Prop :=
  ∀ c, c < s.nextCall → (s.calls c).phase.Owes s.chain (appendCount c s.history)

theorem owes_le_one {chain : Chain Nat} {phase : Phase} {n : Nat} (owes : phase.Owes chain n) :
    n ≤ 1 := by
  cases phase with
  | resuming result =>
    cases result with
    | value joined => cases joined <;> simp_all [Phase.Owes]
    | rejected error => exact owes
  | awaiting o =>
    simp only [Phase.Owes] at owes
    split at owes <;> omega
  | _ => simp_all [Phase.Owes]

theorem owes_status {chain chain' : Chain Nat} {phase : Phase} {n : Nat}
    (owes : phase.Owes chain n)
    (status : ∀ o, phase = .awaiting o → chain'.status o = chain.status o) :
    phase.Owes chain' n := by
  cases phase with
  | awaiting o =>
    simp only [Phase.Owes] at owes ⊢
    rw [status o rfl]
    exact owes
  | resuming result => cases result <;> exact owes
  | _ => exact owes

theorem appendCount_unmade {s : State K V} (h : Groups s) {c : Nat} (unmade : s.nextCall ≤ c) :
    appendCount c s.history = 0 := by
  by_contra pos
  obtain ⟨i, j, v, d, n, mem⟩ := appendCount_pos (Nat.pos_of_ne_zero pos)
  have made := (h.appended mem).1
  omega

theorem quiet_counts {s t : State K V} (quiet : Quiet s t) (d : Nat) :
    appendCount d t.history = appendCount d s.history := by
  rw [quiet.history]

theorem leave_calls (s : State K V) (c : Nat) (phase : Phase) :
    (s.leave c phase).calls = update s.calls c { s.calls c with phase := phase } ∧
      (s.leave c phase).nextCall = s.nextCall ∧ (s.leave c phase).chain = s.chain ∧
      (s.leave c phase).history = s.history := by
  unfold State.leave
  split <;> exact ⟨rfl, rfl, rfl, rfl⟩

variable [DecidableEq K]

/- Only one call moves in a step. Every other call keeps its phase, its appends
   and, since operations have one awaiting call, the status it waits for. -/
theorem balanced_other {s t : State K V} (wired : Wired s) (h : Balanced s) (c : Nat)
    (made : ∀ d, d ≠ c → d < t.nextCall → d < s.nextCall)
    (phases : ∀ d, d ≠ c → d < s.nextCall → (t.calls d).phase = (s.calls d).phase)
    (counts : ∀ d, d ≠ c → appendCount d t.history = appendCount d s.history)
    (status : ∀ o d, o < s.chain.next → (s.operations o).body = .join d → d ≠ c →
      t.chain.status o = s.chain.status o)
    (own : c < t.nextCall → (t.calls c).phase.Owes t.chain (appendCount c t.history)) :
    Balanced t := by
  intro d dlt
  by_cases same : d = c
  · subst d
    exact own dlt
  · have before := made d same dlt
    rw [phases d same before, counts d same]
    refine owes_status (h d before) ?_
    intro o phase
    obtain ⟨olt, body, _⟩ := wired.awaiting before phase
    exact status o d olt body same

theorem balanced_calls {s t : State K V} (wired : Wired s) (h : Balanced s)
    (calls : t.calls = s.calls) (nextCall : t.nextCall = s.nextCall)
    (counts : ∀ d, appendCount d t.history = appendCount d s.history)
    (status : ∀ o d, o < s.chain.next → (s.operations o).body = .join d →
      t.chain.status o = s.chain.status o) : Balanced t := by
  refine balanced_other wired h s.nextCall ?_ ?_ (fun d _ => counts d)
    (fun o d olt body _ => status o d olt body) ?_
  · intro d _ dlt
    omega
  · intro d _ _
    rw [calls]
  · intro lt
    omega

/-- The pass of a call leaves the other calls alone and ends in a fresh wait, or in an error. -/
theorem iterate_calls (s : State K V) (c : Nat) :
    (s.iterate c).nextCall = s.nextCall ∧ (∀ d, d ≠ c → (s.iterate c).calls d = s.calls d) ∧
      (((s.iterate c).calls c).phase = .rejected .arrayLength ∨
        ∃ o, ((s.iterate c).calls c).phase = .awaiting o ∧
          (s.iterate c).chain.status o = .waiting) := by
  unfold State.iterate
  split
  · refine ⟨rfl, ?_, Or.inr ⟨s.chain.next, ?_, ?_⟩⟩
    · intro d other
      exact update_of_ne other _ _
    · simp [State.joinItem]
    · simp [State.joinItem, State.enqueue, Chain.attach]
  · split
    · obtain ⟨calls, nextCall, _⟩ := leave_calls s c (.rejected .arrayLength)
      rw [calls]
      refine ⟨nextCall, ?_, Or.inl ?_⟩
      · intro d other
        exact update_of_ne other _ _
      · simp
    · obtain ⟨calls, nextCall, _⟩ := createItem_new s c
      refine ⟨nextCall, ?_, Or.inr ⟨(s.createItem c).chain.next, ?_, ?_⟩⟩
      · intro d other
        rw [← calls]
        exact update_of_ne other _ _
      · simp [State.joinItem]
      · simp [State.joinItem, State.enqueue, Chain.attach]

theorem balanced_iterate {s : State K V} (wired : Wired s) (h : Balanced s) {c : Nat}
    (nothing : appendCount c s.history = 0) : Balanced (s.iterate c) := by
  have quiet := quiet_iterate s c
  obtain ⟨nextCall, others, ends⟩ := iterate_calls s c
  refine balanced_other wired h c ?_ ?_ (fun d _ => quiet_counts quiet d) ?_ ?_
  · intro d _ dlt
    omega
  · intro d other _
    rw [others d other]
  · intro o d olt _ _
    exact quiet.keeps.status olt
  · intro _
    rw [quiet_counts quiet, nothing]
    rcases ends with phase | ⟨o, phase, waiting⟩
    · rw [phase]
      simp [Phase.Owes]
    · rw [phase]
      simp [Phase.Owes, waiting]

theorem balanced_leave {s : State K V} (wired : Wired s) (h : Balanced s) {c : Nat} {phase : Phase}
    (owes : phase.Owes s.chain (appendCount c s.history)) : Balanced (s.leave c phase) := by
  obtain ⟨calls, nextCall, chain, history⟩ := leave_calls s c phase
  refine balanced_other wired h c ?_ ?_ ?_ ?_ ?_
  · intro d _ dlt
    omega
  · intro d other _
    rw [calls, update_of_ne other]
  · intro d _
    rw [history]
  · intro o d _ _ _
    rw [chain]
  · intro _
    rw [calls, history, chain]
    simpa using owes

theorem balanced_enterCall {s : State K V} (wired : Wired s) (groups : Groups s) (h : Balanced s)
    (context : Context) (key : K) (slot : Nat) (value : V) (phase : Phase)
    (owes : phase.Owes s.chain 0) : Balanced (s.enterCall context key slot value phase) := by
  refine balanced_other wired h s.nextCall ?_ ?_ (fun _ _ => rfl) (fun _ _ _ _ _ => rfl) ?_
  · intro d other dlt
    have : d < s.nextCall + 1 := dlt
    omega
  · intro d other _
    simp [State.enterCall, update_of_ne other]
  · intro _
    have nothing := appendCount_unmade groups (Nat.le_refl s.nextCall)
    simpa [State.enterCall, nothing] using owes

theorem balanced_joinValue {s : State K V} (wired : Wired s) (groups : Groups s) (h : Balanced s)
    (context : Context) (key : K) (index : Number) (value : V) :
    Balanced (s.joinValue context key index value) := by
  rcases joinValue_cases s context key index value with eq | ⟨slot, _, eq | ⟨active, eq⟩⟩ <;> rw [eq]
  · exact balanced_enterCall wired groups h context key 0 value _ (by simp [Phase.Owes])
  · exact balanced_enterCall wired groups h context key slot value _ (by simp [Phase.Owes])
  · have entered := balanced_enterCall wired groups h context key slot value .entering
      (by simp [Phase.Owes])
    have wires := wired_enterCall wired context key slot value .entering (by simp)
    exact balanced_iterate (wired_active wires active) entered
      (appendCount_unmade groups (Nat.le_refl s.nextCall))

theorem owes_pending {s : State K V} (wired : Wired s) (h : Balanced s) {o c : Nat}
    (lt : o < s.chain.next) (body : (s.operations o).body = .join c)
    (unsettled : s.chain.status o ≠ .settled) :
    appendCount c s.history = if s.chain.status o = .waiting then 0 else 1 := by
  have owes := h c (wired.join_body lt body).1
  rw [wired.pending lt body unsettled] at owes
  exact owes

/- A join operation settles and hands its result to the call that awaits it. -/
theorem balanced_settleJoin {s t : State K V} (wired : Wired s) (h : Balanced s) {o c : Nat}
    (body : (s.operations o).body = .join c)
    (calls : t.calls = s.calls) (nextCall : t.nextCall = s.nextCall) (history : t.history = s.history)
    (status : ∀ p, p < s.chain.next → p ≠ o → t.chain.status p = s.chain.status p)
    {result : OperationResult} (owes : (Phase.resuming result).Owes s.chain (appendCount c s.history)) :
    Balanced (t.settleJoin o c result) := by
  refine balanced_other wired h c ?_ ?_ ?_ ?_ ?_
  · intro d _ dlt
    exact nextCall ▸ dlt
  · intro d other _
    simp [State.settleJoin, State.setPhase, State.settle, update_of_ne other, calls]
  · intro d _
    simp [State.settleJoin, State.setPhase, State.settle, history]
  · intro p d plt pbody other
    have same : p ≠ o := bodies_apart body pbody (fun eq => other (Body.join.inj eq))
    simpa [State.settleJoin, State.setPhase, State.settle, Chain.settle, update_of_ne same]
      using status p plt same
  · intro _
    have kept : (Phase.resuming result).Owes (t.settleJoin o c result).chain
        (appendCount c s.history) := owes_status owes (by simp)
    simpa [State.settleJoin, State.setPhase, State.settle, history] using kept

theorem balanced_startJoin {s : State K V} (wired : Wired s) (h : Balanced s) {o c : Nat}
    (ready : s.chain.ready o = true) (body : (s.operations o).body = .join c) :
    Balanced (s.startJoin o c (s.chain.lane o)) := by
  obtain ⟨lt, waiting, _⟩ := (Chain.ready_iff _ _).mp ready
  have nothing : appendCount c s.history = 0 := by
    simpa [waiting] using owes_pending wired h lt body (by simp [waiting])
  have begun : ∀ p, p < s.chain.next → p ≠ o → (s.begin o).chain.status p = s.chain.status p := by
    intro p _ other
    simp [State.begin, Chain.start, update_of_ne other]
  unfold State.startJoin
  split
  · refine balanced_settleJoin (t := s.begin o) wired h body rfl rfl rfl begun ?_
    simp [Phase.Owes, nothing]
  · split
    · refine balanced_settleJoin (t := (s.begin o).setValues _ _) wired h body rfl rfl rfl begun ?_
      simp [Phase.Owes, nothing]
    · refine balanced_other wired h c (fun _ _ => id) (fun _ _ _ => rfl) ?_ ?_ ?_
      · intro d other
        simp [State.appendValue, State.record, State.setStage, State.setValues, State.setItem,
          State.begin, appendCount_cons, Event.appends, Ne.symm other]
      · intro p d plt pbody other
        have same : p ≠ o := bodies_apart body pbody (fun eq => other (Body.join.inj eq))
        exact begun p plt same
      · intro _
        have phase : ((s.appendValue o c (s.chain.lane o)).calls c).phase = .awaiting o :=
          wired.pending lt body (by simp [waiting])
        rw [phase]
        simp [State.appendValue, State.record, State.setStage, State.setValues, State.setItem,
          State.begin, Chain.start, appendCount_cons, Event.appends, Phase.Owes, nothing]

theorem balanced_startExpire {s : State K V} (wired : Wired s) (h : Balanced s) {o a : Nat}
    (lt : o < s.chain.next) (body : (s.operations o).body = .expire a) :
    Balanced (s.startExpire o a (s.chain.lane o)) := by
  have other : ∀ {p d}, (s.operations p).body = .join d → p ≠ o := by
    intro p d pbody same
    rw [same, body] at pbody
    cases pbody
  obtain ⟨alt, item⟩ := wired.expire_body lt body
  obtain ⟨ilt, named⟩ := wired.arm_item alt
  unfold State.startExpire
  split
  · refine balanced_calls wired h rfl rfl (fun _ => rfl) ?_
    intro p d _ pbody
    simp [State.begin, State.settle, Chain.start, Chain.settle, update_of_ne (other pbody)]
  · split
    · have only : ArmsOnly (s.begin o) ((s.begin o).rearm a (s.chain.lane o)) :=
        armsOnly_trans (cancelDeadline_armsOnly _ _)
          (armDeadline_armsOnly _ _ (item ▸ ilt) (item ▸ named))
      refine balanced_calls wired h only.calls only.nextCall ?_ ?_
      · intro d
        exact congrArg (appendCount d) only.history
      · intro p d plt pbody
        have kept := only.status (o := p) plt
        simpa [State.begin, State.settle, Chain.start, Chain.settle, update_of_ne (other pbody)]
          using kept
    · refine balanced_calls wired h rfl rfl ?_ ?_
      · intro d
        simp [State.enterDeadline, State.record, State.setStage, State.setProcessed, State.setItem,
          State.begin, appendCount_cons, Event.appends]
      · intro p d _ pbody
        simp [State.enterDeadline, State.record, State.setStage, State.setProcessed, State.setItem,
          State.begin, Chain.start, update_of_ne (other pbody)]

theorem concludeJoin_calls {s : State K V} {c i : Nat} (ilt : i < s.nextItem)
    (named : (s.items i).key = (s.calls c).key) (processed : Bool) :
    (s.concludeJoin c i processed).calls = s.calls ∧
      (s.concludeJoin c i processed).nextCall = s.nextCall := by
  unfold State.concludeJoin
  split
  · exact ⟨rfl, rfl⟩
  · rename_i location _
    split
    · have removed := removeAt_same (s.cancelDeadline i) (s.calls c).key i location false
      exact ⟨removed.2.2.2.1, removed.2.2.2.2.2.2.2.1⟩
    · split
      · have only := renew_armsOnly location ilt named
        exact ⟨only.calls, only.nextCall⟩
      · exact ⟨rfl, rfl⟩

theorem balanced_continueJoin {s : State K V} (wired : Wired s) (h : Balanced s) {o c : Nat}
    {processed : Bool} (lt : o < s.chain.next) (running : s.chain.status o = .running)
    (body : (s.operations o).body = .join c) :
    Balanced (s.continueJoin o c (s.chain.lane o) processed) := by
  have once : appendCount c s.history = 1 := by
    simpa [running] using owes_pending wired h lt body (by simp [running])
  have ilt := wired.lane_item lt
  have named : ((s.setProcessed (s.chain.lane o) processed).items (s.chain.lane o)).key =
      (s.calls c).key := by
    simpa [State.setProcessed, State.setItem] using (wired.join_body lt body).2
  have quiet := quiet_concludeJoin (s := s.setProcessed (s.chain.lane o) processed) ilt named processed
  obtain ⟨calls, nextCall⟩ := concludeJoin_calls (s := s.setProcessed (s.chain.lane o) processed)
    ilt named processed
  refine balanced_settleJoin wired h body calls nextCall quiet.history ?_ ?_
  · intro p plt _
    exact quiet.keeps.status plt
  · simp [Phase.Owes, once]

theorem balanced_continueExpire {s : State K V} (wired : Wired s) (h : Balanced s) {o a : Nat}
    (body : (s.operations o).body = .expire a) :
    Balanced (s.continueExpire o a (s.chain.lane o)) := by
  have same : (s.concludeExpire a (s.chain.lane o)).calls = s.calls ∧
      (s.concludeExpire a (s.chain.lane o)).nextCall = s.nextCall ∧
      (s.concludeExpire a (s.chain.lane o)).history = s.history ∧
      (s.concludeExpire a (s.chain.lane o)).chain = s.chain := by
    unfold State.concludeExpire
    split
    · exact ⟨rfl, rfl, rfl, rfl⟩
    · rename_i location _
      obtain ⟨_, chain, _, calls, history, _, _, nextCall, _⟩ :=
        removeAt_same s (s.arms a).key (s.chain.lane o) location true
      exact ⟨calls, nextCall, history, chain⟩
  obtain ⟨calls, nextCall, history, chain⟩ := same
  refine balanced_calls wired h calls nextCall ?_ ?_
  · intro d
    exact congrArg (appendCount d) history
  · intro p d _ pbody
    have other : p ≠ o := bodies_apart body pbody nofun
    simp [State.continueExpire, State.settle, Chain.settle, update_of_ne other, chain]

theorem balanced_callbackReturns {s t : State K V} (wired : Wired s) (h : Balanced s) {o : Nat}
    {outcome : CallbackOutcome} (next : s.callbackReturns o outcome = some t) : Balanced t := by
  obtain ⟨_, _, _, ⟨c, _, rfl⟩ | ⟨a, _, rfl⟩⟩ := callbackReturns_cases next
  · refine balanced_calls wired h rfl rfl ?_ (fun _ _ _ _ => rfl)
    intro d
    simp [State.record, State.setStage, appendCount_cons, Event.appends]
  · refine balanced_calls wired h rfl rfl ?_ (fun _ _ _ _ => rfl)
    intro d
    simp [State.record, State.setStage, appendCount_cons, Event.appends]

theorem balanced_resume {s t : State K V} (wired : Wired s) (h : Balanced s) {c : Nat}
    (next : s.resume c = some t) : Balanced t := by
  obtain ⟨lt, ⟨phase, rfl⟩ | ⟨phase, rfl⟩ | ⟨error, phase, rfl⟩⟩ := resume_cases next
  · have owes := h c lt
    rw [phase] at owes
    exact balanced_leave wired h (by simpa [Phase.Owes] using owes)
  · have owes := h c lt
    rw [phase] at owes
    exact balanced_iterate wired h (by simpa [Phase.Owes] using owes)
  · have owes := h c lt
    rw [phase] at owes
    exact balanced_leave wired h (by simpa [Phase.Owes] using owes)

theorem balanced_step {s t : State K V} {a : Action K V} (wired : Wired s) (groups : Groups s)
    (h : Balanced s) (next : step s a = some t) : Balanced t := by
  cases a with
  | joinValue context key index value =>
    cases next
    exact balanced_joinValue wired groups h context key index value
  | enter c =>
    obtain ⟨lt, phase, _, rfl⟩ := enter_cases next
    have owes := h c lt
    rw [phase] at owes
    exact balanced_iterate (wired_active wired (s.activeTTLJoins + 1)) h owes
  | startOperation o =>
    obtain ⟨ready, ⟨c, body, rfl⟩ | ⟨b, body, rfl⟩⟩ := startOperation_cases next
    · exact balanced_startJoin wired h ready body
    · exact balanced_startExpire wired h ((Chain.ready_iff _ _).mp ready).1 body
  | callbackReturns o outcome => exact balanced_callbackReturns wired h next
  | continueOperation o =>
    obtain ⟨lt, running, ⟨c, processed, body, _, rfl⟩ | ⟨c, body, _, rfl⟩ |
      ⟨b, outcome, body, _, rfl⟩⟩ := continueOperation_cases next
    · exact balanced_continueJoin wired h lt running body
    · have owes := owes_le_one (h c (wired.join_body lt body).1)
      exact balanced_settleJoin (t := s) wired h body rfl rfl rfl (fun _ _ _ => rfl) owes
    · exact balanced_continueExpire wired h body
  | resume c => exact balanced_resume wired h next
  | fire b =>
    obtain ⟨lt, _, rfl⟩ := fire_cases next
    have only := armsOnly_trans (disarm_armsOnly s b) (expire_armsOnly (s.disarm b) lt)
    refine balanced_calls wired h only.calls only.nextCall ?_ (fun _ _ plt _ => only.status plt)
    intro d
    rw [only.history]
  | _ =>
    obtain ⟨objects, history⟩ := outside_step next trivial
    obtain ⟨-, chain, -, -, -, -, calls, nextCall⟩ := objects_same objects
    apply balanced_calls wired h calls nextCall
    · intro d
      rw [history]
    · intro o d _ _
      rw [chain]

theorem balanced_reachable [Inhabited K] [Inhabited V] {ok : State K V → Action K V → Prop}
    {s : State K V} (reach : ReachableWith ok s) : Groups s ∧ Balanced s := by
  obtain ⟨s₀, start, run⟩ := reach
  have fresh : Balanced s₀ := by
    obtain ⟨ttlMs, renewTTL, metricsEnabled, now, contextNow, aborted, rfl⟩ := start
    intro c clt
    simp [initial] at clt
  have all := Transitions.steps_invariant
    (fun s => Wired s ∧ Groups s ∧ Balanced s) ?_ run
    ⟨wired_initial start, groups_initial start, fresh⟩
  · exact all.2
  · rintro s a t ⟨wired, groups, balanced⟩ _ next
    exact ⟨wired_step wired next, groups_step wired groups next,
      balanced_step wired groups balanced next⟩

end Balance

section Callbacks
variable {K V : Type}

/-- The callback that the operation started on the item has not settled yet. -/
def InProgress (s : State K V) (operation item : Nat) : Prop :=
  (∃ e ∈ s.history, e.Starts operation item) ∧ ¬ ∃ e ∈ s.history, e.Returns operation

def startCount (operation : Nat) (history : List (Event V)) : Nat :=
  history.countP fun
    | .joinStarted o _ => decide (o = operation)
    | .deadlineStarted o _ => decide (o = operation)
    | _ => false

/-- An operation that waits has started no callback, and no operation starts two. -/
def StartsOnce (s : State K V) : Prop :=
  ∀ o, startCount o s.history ≤ if o < s.chain.next ∧ s.chain.status o ≠ .waiting then 1 else 0

/- A step that adds no start event and sends no operation back to waiting. -/
theorem startsOnce_kept {s t : State K V} (h : StartsOnce s)
    (counts : ∀ o, startCount o t.history = startCount o s.history)
    (begun : ∀ o, o < s.chain.next → s.chain.status o ≠ .waiting →
      o < t.chain.next ∧ t.chain.status o ≠ .waiting) : StartsOnce t := by
  intro o
  have before := h o
  rw [counts o]
  by_cases started : o < s.chain.next ∧ s.chain.status o ≠ .waiting
  · simpa [begun o started.1 started.2, started] using before
  · simp only [started, ↓reduceIte, Nat.le_zero_eq] at before
    omega

theorem startsOnce_quiet {s t : State K V} (h : StartsOnce s) (quiet : Quiet s t) : StartsOnce t := by
  refine startsOnce_kept h ?_ ?_
  · intro o
    rw [quiet.history]
  · intro o lt begun
    rw [quiet.keeps.status lt]
    exact ⟨Nat.lt_of_lt_of_le lt quiet.keeps.next_le, begun⟩

theorem startsOnce_settle {s : State K V} (h : StartsOnce s) (o : Nat) : StartsOnce (s.settle o) := by
  refine startsOnce_kept h (fun _ => rfl) ?_
  intro p lt begun
  by_cases same : p = o
  · subst p
    simpa [State.settle, Chain.settle] using lt
  · simpa [State.settle, Chain.settle, update_of_ne same] using ⟨lt, begun⟩

theorem startsOnce_returned {s t : State K V} (h : StartsOnce s) {o : Nat} {outcome : CallbackOutcome}
    (next : s.callbackReturns o outcome = some t) : StartsOnce t := by
  obtain ⟨_, _, _, ⟨c, _, rfl⟩ | ⟨a, _, rfl⟩⟩ := callbackReturns_cases next <;>
  · refine startsOnce_kept h ?_ (fun _ lt begun => ⟨lt, begun⟩)
    intro p
    simp [State.record, State.setStage, startCount]

/- The operation that starts a callback was waiting, so this is its first one. -/
theorem startsOnce_begun {s t : State K V} (h : StartsOnce s) {o : Nat}
    (ready : s.chain.ready o = true) (next : t.chain.next = s.chain.next)
    (status : t.chain.status = update s.chain.status o .running)
    (counts : ∀ p, startCount p t.history = startCount p s.history + if o = p then 1 else 0) :
    StartsOnce t := by
  obtain ⟨lt, waiting, _⟩ := (Chain.ready_iff _ _).mp ready
  intro p
  have before := h p
  rw [counts p, next, status]
  by_cases same : o = p
  · subst p
    simp only [lt, waiting, ne_eq, not_true_eq_false, and_false, ↓reduceIte] at before
    simp only [lt, update_self, ne_eq, reduceCtorEq, not_false_eq_true, and_self, ↓reduceIte]
    omega
  · rw [update_of_ne (Ne.symm same)]
    simpa [same] using before

variable [DecidableEq K]

theorem startsOnce_startJoin {s : State K V} (h : StartsOnce s) {o c : Nat}
    (ready : s.chain.ready o = true) : StartsOnce (s.startJoin o c (s.chain.lane o)) := by
  unfold State.startJoin
  split
  · rw [State.settleJoin, begin_settle]
    exact startsOnce_quiet (startsOnce_settle h o) (quiet_setPhase _ _ _)
  · split
    · refine startsOnce_kept (startsOnce_settle h o) (fun _ => rfl) ?_
      intro p lt begun
      by_cases same : p = o
      · subst p
        exact ⟨lt, by simp [State.settleJoin, State.setPhase, State.settle, Chain.settle]⟩
      · refine ⟨lt, ?_⟩
        simpa [State.settleJoin, State.setPhase, State.setValues, State.setItem, State.begin,
          State.settle, Chain.settle, Chain.start, update_of_ne same] using begun
    · refine startsOnce_begun h ready rfl rfl ?_
      intro p
      simp [State.appendValue, State.record, State.setStage, State.setValues, State.setItem,
        State.begin, startCount, List.countP_cons]

theorem startsOnce_startExpire {s : State K V} (wired : Wired s) (h : StartsOnce s) {o a : Nat}
    (ready : s.chain.ready o = true) (body : (s.operations o).body = .expire a) :
    StartsOnce (s.startExpire o a (s.chain.lane o)) := by
  have lt := ((Chain.ready_iff _ _).mp ready).1
  obtain ⟨alt, item⟩ := wired.expire_body lt body
  obtain ⟨ilt, named⟩ := wired.arm_item alt
  unfold State.startExpire
  split
  · rw [begin_settle]
    exact startsOnce_settle h o
  · split
    · have only : ArmsOnly (s.begin o) ((s.begin o).rearm a (s.chain.lane o)) :=
        armsOnly_trans (cancelDeadline_armsOnly _ _)
          (armDeadline_armsOnly _ _ (item ▸ ilt) (item ▸ named))
      have quiet := quiet_settle (quiet_armsOnly only) lt
      rw [begin_settle] at quiet
      exact startsOnce_quiet (startsOnce_settle h o) quiet
    · refine startsOnce_begun h ready rfl rfl ?_
      intro p
      simp [State.enterDeadline, State.record, State.setStage, State.setProcessed, State.setItem,
        State.begin, startCount, List.countP_cons]

theorem startsOnce_continueOperation {s t : State K V} (wired : Wired s) (h : StartsOnce s)
    {o : Nat} (next : s.continueOperation o = some t) : StartsOnce t := by
  obtain ⟨lt, running, ⟨c, processed, body, _, rfl⟩ | ⟨c, body, _, rfl⟩ |
    ⟨b, outcome, body, _, rfl⟩⟩ := continueOperation_cases next
  · have named : ((s.setProcessed (s.chain.lane o) processed).items (s.chain.lane o)).key =
        (s.calls c).key := by
      simpa [State.setProcessed, State.setItem] using (wired.join_body lt body).2
    have quiet := quiet_concludeJoin (s := s.setProcessed (s.chain.lane o) processed)
      (wired.lane_item lt) named processed
    have marked : StartsOnce (s.setProcessed (s.chain.lane o) processed) := h
    exact startsOnce_quiet (startsOnce_settle (startsOnce_quiet marked quiet) o)
      (quiet_setPhase _ _ _)
  · exact startsOnce_quiet (startsOnce_settle h o) (quiet_setPhase _ _ _)
  · exact startsOnce_settle (startsOnce_quiet h (quiet_concludeExpire s b _)) o

theorem startsOnce_step {s t : State K V} {a : Action K V} (wired : Wired s) (h : StartsOnce s)
    (next : step s a = some t) : StartsOnce t := by
  cases a with
  | joinValue context key index value =>
    cases next
    exact startsOnce_quiet h (quiet_joinValue s context key index value)
  | enter c =>
    obtain ⟨_, _, _, rfl⟩ := enter_cases next
    exact startsOnce_quiet h (quiet_trans (quiet_active s _) (quiet_iterate _ c))
  | startOperation o =>
    obtain ⟨ready, ⟨c, _, rfl⟩ | ⟨b, body, rfl⟩⟩ := startOperation_cases next
    · exact startsOnce_startJoin h ready
    · exact startsOnce_startExpire wired h ready body
  | callbackReturns o outcome => exact startsOnce_returned h next
  | continueOperation o => exact startsOnce_continueOperation wired h next
  | resume c =>
    obtain ⟨_, ⟨_, rfl⟩ | ⟨_, rfl⟩ | ⟨_, _, rfl⟩⟩ := resume_cases next
    · exact startsOnce_quiet h (quiet_leave s c _)
    · exact startsOnce_quiet h (quiet_iterate s c)
    · exact startsOnce_quiet h (quiet_leave s c _)
  | fire b => exact startsOnce_quiet h (quiet_fire next)
  | _ =>
    obtain ⟨objects, history⟩ := outside_step next trivial
    exact startsOnce_quiet h (quiet_frame objects history)

theorem startsOnce_reachable [Inhabited K] [Inhabited V] {s : State K V} (reach : Reachable s) :
    Wired s ∧ StartsOnce s := by
  obtain ⟨s₀, start, run⟩ := reach
  have fresh : StartsOnce s₀ := by
    obtain ⟨ttlMs, renewTTL, metricsEnabled, now, contextNow, aborted, rfl⟩ := start
    intro o
    simp [initial, startCount]
  refine Transitions.steps_invariant (fun s => Wired s ∧ StartsOnce s) ?_ run
    ⟨wired_initial start, fresh⟩
  rintro s a t ⟨wired, once⟩ _ next
  exact ⟨wired_step wired next, startsOnce_step wired once next⟩

end Callbacks

section Promises
variable {K V : Type}

theorem appended_once {s : State K V} (groups : Groups s) {c : Nat}
    (once : appendCount c s.history = 1) :
    ∃ later earlier i deadline, ∃ now : Int,
      s.history = later ++ .appended c i (s.calls c).index (s.calls c).value deadline now :: earlier ∧
      appendCount c later = 0 ∧ appendCount c earlier = 0 ∧ i < s.nextItem ∧
      (s.items i).key = (s.calls c).key ∧ (∀ e ∈ earlier, ¬ e.Terminal i) ∧
      ∀ d ∈ deadline, (now : Ms) < d := by
  obtain ⟨i, j, v, d, n, mem⟩ := appendCount_pos (by omega : 0 < appendCount c s.history)
  obtain ⟨_, rfl, rfl, named, fresh⟩ := groups.appended mem
  obtain ⟨later, earlier, split⟩ := List.append_of_mem mem
  have lawful := groups.lawful
  rw [split] at lawful once
  have counted : appendCount c later + (appendCount c earlier + 1) = 1 := by
    simpa [appendCount, List.countP_append, List.countP_cons, Event.appends] using once
  refine ⟨later, earlier, i, d, n, split, by omega, by omega, groups.known _ mem, named, ?_, fresh⟩
  exact (lawful_split lawful).1 i rfl

variable [DecidableEq K] [Inhabited K] [Inhabited V]

theorem reachable_exec {ttlMs : Ms} {renewTTL metricsEnabled : Bool} {now contextNow : Int}
    {aborted : Nat → Bool} {actions : List (Action K V)} {s : State K V}
    (run : Transitions.exec step (initial ttlMs renewTTL metricsEnabled now contextNow aborted)
      actions = some s) : Reachable s :=
  ⟨_, ⟨ttlMs, renewTTL, metricsEnabled, now, contextNow, aborted, rfl⟩, Transitions.exec_steps run⟩

/- No value is lost or duplicated. A call that has returned appended once, into
   a group of its key that was still open; a slot holds the values of the calls
   that appended to it, once each, and nothing else. -/
theorem joinValue_exactly_once {s : State K V} (reach : Reachable s) :
    (∀ c, c < s.nextCall → (s.calls c).phase = .returned →
      ∃ later earlier i deadline, ∃ now : Int,
        s.history =
          later ++ .appended c i (s.calls c).index (s.calls c).value deadline now :: earlier ∧
        appendCount c later = 0 ∧ appendCount c earlier = 0 ∧ i < s.nextItem ∧
        (s.items i).key = (s.calls c).key ∧ (∀ e ∈ earlier, ¬ e.Terminal i) ∧
        ∀ d ∈ deadline, (now : Ms) < d) ∧
    (∀ c, c < s.nextCall → appendCount c s.history = 0 → (s.calls c).phase ≠ .returned) ∧
    ∀ i, i < s.nextItem → ∀ j, ∃ callers : List Nat, callers.Nodup ∧
      slot (s.items i).values j = callers.map (fun c => (s.calls c).value) ∧
      (∀ c ∈ callers, c < s.nextCall ∧ (s.calls c).key = (s.items i).key ∧ (s.calls c).index = j ∧
        ∃ deadline now, .appended c i j (s.calls c).value deadline now ∈ s.history) ∧
      ∀ c value deadline, ∀ now : Int, .appended c i j value deadline now ∈ s.history → c ∈ callers := by
  obtain ⟨groups, balanced⟩ := balanced_reachable reach
  refine ⟨?_, ?_, ?_⟩
  · intro c lt phase
    have owes := balanced c lt
    rw [phase] at owes
    exact appended_once groups owes
  · intro c lt nothing phase
    have owes := balanced c lt
    rw [phase, nothing] at owes
    cases owes
  · intro i ilt j
    refine ⟨slotCallers s.history i j, ?_, ?_, ?_, ?_⟩
    · refine List.nodup_iff_count_le_one.mpr ?_
      intro c
      have counted := count_slotCallers s.history i j c
      by_cases made : c < s.nextCall
      · have owes := owes_le_one (balanced c made)
        omega
      · have nothing := appendCount_unmade groups (Nat.le_of_not_lt made)
        omega
    · rw [groups.contents ilt j]
      exact slotLog_callers (fun mem => (groups.appended mem).2.2.1) i j
    · intro c mem
      obtain ⟨v, d, n, event⟩ := mem_slotCallers.mp mem
      obtain ⟨lt, index, value, named, _⟩ := groups.appended event
      subst v
      exact ⟨lt, named.symm, index.symm, d, n, event⟩
    · intro c value deadline now event
      exact mem_slotCallers.mpr ⟨value, deadline, now, event⟩

/-- One call, alone, whose callback completes the group. -/
def soloJoin : List (Action Nat Nat) :=
  [.joinValue ⟨0, none⟩ 3 (.finite 1) 7, .startOperation 0, .callbackReturns 0 (.returned true),
    .continueOperation 0, .resume 0]

theorem joinValue_exactly_once_solo :
    ∃ s : State Nat Nat, Transitions.exec step (initial 0 false true 0 0 fun _ => false) soloJoin =
        some s ∧ (s.calls 0).phase = .returned ∧ slot (s.items 0).values 1 = [7] ∧
      ∃ later earlier i deadline, ∃ now : Int,
        s.history =
          later ++ .appended 0 i (s.calls 0).index (s.calls 0).value deadline now :: earlier ∧
        appendCount 0 later = 0 ∧ appendCount 0 earlier = 0 ∧ i < s.nextItem ∧
        (s.items i).key = (s.calls 0).key ∧ (∀ e ∈ earlier, ¬ e.Terminal i) ∧
        ∀ d ∈ deadline, (now : Ms) < d := by
  obtain ⟨s, run, made, returned, values⟩ : ∃ s : State Nat Nat, Transitions.exec step
      (initial 0 false true 0 0 fun _ => false) soloJoin = some s ∧ 0 < s.nextCall ∧
      (s.calls 0).phase = .returned ∧ slot (s.items 0).values 1 = [7] :=
    ⟨_, rfl, by decide, rfl, rfl⟩
  exact ⟨s, run, returned, values,
    (joinValue_exactly_once (reachable_exec run)).1 0 made returned⟩

/- The callbacks of a group never overlap, and its terminal is the last of them. -/
theorem callbacks_serialised {s : State K V} (reach : Reachable s) :
    (∀ o, startCount o s.history ≤ 1) ∧
    (∀ i o p, InProgress s o i → InProgress s p i → o = p) ∧
    ∀ later e earlier i, s.history = later ++ e :: earlier → e.Terminal i →
      ∀ f ∈ later, ∀ o, ¬ f.Starts o i := by
  obtain ⟨wired, groups⟩ := groups_reachable reach
  refine ⟨?_, ?_, ?_⟩
  · intro o
    have once := (startsOnce_reachable reach).2 o
    split at once <;> omega
  · rintro i o p ⟨⟨e, emem, estarts⟩, eopen⟩ ⟨⟨f, fmem, fstarts⟩, fopen⟩
    obtain ⟨olt, olane, returned | ⟨orunning, _⟩⟩ := groups.callbacks e emem estarts
    · exact absurd returned eopen
    obtain ⟨plt, plane, returned | ⟨prunning, _⟩⟩ := groups.callbacks f fmem fstarts
    · exact absurd returned fopen
    exact Chain.running_unique wired.chain olt plt (olane.trans plane.symm) orunning prunning
  · intro later e earlier i split terminal f mem o starts
    have lawful := groups.lawful
    rw [split] at lawful
    refine (lawful_split lawful).2 i terminal f mem ?_
    rcases starts with rfl | rfl
    · exact rfl
    · exact rfl

theorem callbacks_serialised_solo :
    ∃ s : State Nat Nat, Transitions.exec step (initial 0 false true 0 0 fun _ => false)
        (soloJoin.take 2) = some s ∧ InProgress s 0 0 ∧ (∀ p, InProgress s p 0 → p = 0) := by
  obtain ⟨s, run, history⟩ : ∃ s : State Nat Nat, Transitions.exec step
      (initial 0 false true 0 0 fun _ => false) (soloJoin.take 2) = some s ∧
      s.history = [.joinStarted 0 0, .appended 0 0 1 7 none 0] := ⟨_, rfl, rfl⟩
  have begun : InProgress s 0 0 := by
    simp [InProgress, history, Event.Starts, Event.Returns]
  refine ⟨s, run, begun, ?_⟩
  intro p progress
  exact (callbacks_serialised (reachable_exec run)).2.1 0 p 0 progress begun

end Promises

end JoinStorage
