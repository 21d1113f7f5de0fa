import TsServiceLib.Store.JoinLookup

/-!
The first operation of a group. A group is created for the call that queues the
first operation on it, so its deadline callback comes after a value, provided
that nothing is queued in between and that the operation starts in time. The
condition says when this is so: no pass creates a group under a deadline context
that is already aborted, the first operation of a group finds it live, and the
clock does not run back.
-/
namespace JoinStorage
open OrderedMaps TailChain Numbers Function

section Filled
variable {K V : Type}

def Event.AppendsTo (item : Nat) (e : Event V) : Prop :=
  ∃ c j v d, ∃ n : Int, e = .appended c item j v d n

/-- Before a deadline callback of a group there is a value in it. -/
def Filled : List (Event V) → Prop
  | [] => True
  | e :: earlier =>
    (∀ o i, e = .deadlineStarted o i → ∃ f ∈ earlier, f.AppendsTo i) ∧ Filled earlier

theorem filled_split {later earlier : List (Event V)} {o i : Nat}
    (h : Filled (later ++ .deadlineStarted o i :: earlier)) : ∃ f ∈ earlier, f.AppendsTo i := by
  induction later with
  | nil => exact h.1 o i rfl
  | cons e later ih => exact ih h.2

/-- No operation was attached to its lane before this one. -/
def First (s : State K V) (o : Nat) : Prop := ∀ p, p < o → s.chain.lane p ≠ s.chain.lane o

/-- The operation a group was created for has yet to start, or a value has been appended. -/
structure Opened (s : State K V) : Prop where
  first : ∀ {i}, i < s.nextItem → ∃ o c, o < s.chain.next ∧ s.chain.lane o = i ∧ First s o ∧
    (s.operations o).body = .join c ∧ (s.calls c).index < maxArrayLength ∧
    (s.chain.status o = .waiting ∨ ∃ e ∈ s.history, e.AppendsTo i)
  filled : Filled s.history

theorem first_kept {s t : State K V} (keeps : ∀ {o}, o < s.chain.next → t.chain.lane o = s.chain.lane o)
    {o : Nat} (lt : o < s.chain.next) (first : First s o) : First t o := by
  intro p before
  rw [keeps lt, keeps (by omega : p < s.chain.next)]
  exact first p before

/- Operations keep their lane and body, and an operation that leaves `waiting`
   was not the first of its lane unless it appends. -/
theorem opened_frame {s t : State K V} (h : Opened s)
    (made : ∀ {o c}, o < s.chain.next → (s.operations o).body = .join c → c < s.nextCall)
    (nextItem : t.nextItem = s.nextItem) (next_le : s.chain.next ≤ t.chain.next)
    (lane : ∀ {o}, o < s.chain.next → t.chain.lane o = s.chain.lane o)
    (body : ∀ {o}, o < s.chain.next → (t.operations o).body = (s.operations o).body)
    (index : ∀ {c}, c < s.nextCall → (t.calls c).index = (s.calls c).index)
    (started : ∀ {o c}, o < s.chain.next → First s o → (s.operations o).body = .join c →
      (s.calls c).index < maxArrayLength → s.chain.status o = .waiting →
      t.chain.status o = .waiting ∨ ∃ e ∈ t.history, e.AppendsTo (s.chain.lane o))
    (history : ∀ e ∈ s.history, e ∈ t.history) (filled : Filled t.history) : Opened t where
  first := by
    intro i ilt
    rw [nextItem] at ilt
    obtain ⟨o, c, lt, olane, first, obody, small, progress⟩ := h.first ilt
    refine ⟨o, c, Nat.lt_of_lt_of_le lt next_le, (lane lt).trans olane, first_kept lane lt first,
      (body lt).trans obody, ?_, ?_⟩
    · rw [index (made lt obody)]
      exact small
    · rcases progress with waiting | ⟨e, mem, appends⟩
      · exact olane ▸ started lt first obody small waiting
      · exact Or.inr ⟨e, history e mem, appends⟩
  filled := filled

theorem opened_quiet {s t : State K V} (h : Opened s)
    (made : ∀ {o c}, o < s.chain.next → (s.operations o).body = .join c → c < s.nextCall)
    (quiet : Quiet s t) (nextItem : t.nextItem = s.nextItem) : Opened t := by
  refine opened_frame h made nextItem quiet.keeps.next_le quiet.keeps.lane ?_ ?_ ?_ ?_ ?_
  · intro o lt
    rw [quiet.keeps.operation lt]
  · intro c lt
    exact (quiet.call lt).2.1
  · intro o c lt _ _ _ waiting
    rw [quiet.keeps.status lt]
    exact Or.inl waiting
  · rw [quiet.history]
    exact fun _ => id
  · rw [quiet.history]
    exact h.filled

end Filled

section Opening
variable {K V : Type} [DecidableEq K]

/-- A pass that creates a group with a TTL does so under a context that is not aborted,
    as far as that context has a deadline. -/
def PassUnaborted (s : State K V) (c : Nat) : Prop :=
  s.findLive (s.calls c).key = none → 0 < (s.calls c).ttl →
    (s.calls c).context.deadline.isSome = true → s.aborted (s.calls c).context.signal = false

/-- The operation that a group was created for starts while the group is live. -/
def FirstFindsLive (s : State K V) (o : Nat) : Prop :=
  ∀ c, (s.operations o).body = .join c → First s o →
    s.findLive (s.calls c).key = some (s.chain.lane o)

def InTime (s : State K V) : Action K V → Prop
  | .joinValue context key index _ => (slotIndex index).isSome = true → s.findLive key = none →
      0 < s.effectiveTTL context → context.deadline.isSome = true → s.aborted context.signal = false
  | .enter c => PassUnaborted s c
  | .resume c => (s.calls c).phase = .resuming (.value false) → PassUnaborted s c
  | .startOperation o => FirstFindsLive s o
  | .clock now _ => s.now ≤ now
  | _ => True

theorem live_entry {s : State K V} {k : K} {i : Nat} (live : s.findLive k = some i) :
    s.entry k = some i ∧ s.expired i = false := by
  rw [findLive_entry, Option.filter_eq_some_iff] at live
  exact ⟨live.1, by simpa using live.2⟩

theorem first_unprocessed {s : State K V} (wired : Wired s) (phases : Phases s) {o : Nat}
    (lt : o < s.chain.next) (first : First s o) (waiting : s.chain.status o = .waiting) :
    (s.items (s.chain.lane o)).processed = false := by
  by_contra processed
  obtain ⟨p, plt, lane, begun⟩ := phases.worked (wired.lane_item lt) (by simpa using processed)
  rcases Nat.lt_trichotomy p o with before | same | after
  · exact first p before lane
  · exact begun (same ▸ waiting)
  · have settled := wired.chain.serial plt after lane.symm begun
    rw [waiting] at settled
    cases settled

theorem live_accepts {s : State K V} (stored : Stored s) {c i : Nat}
    (live : s.findLive (s.calls c).key = some i) (unprocessed : (s.items i).processed = false) :
    s.refuses c i = false := by
  obtain ⟨entry, fresh⟩ := live_entry live
  have located : (s.locate (s.calls c).key i).isNone = false := by
    cases located : s.locate (s.calls c).key i with
    | some _ => rfl
    | none => exact absurd entry ((locate_eq_none stored _ _).mp located)
  simp [State.refuses, unprocessed, fresh, located]

omit [DecidableEq K] in
theorem opened_settle {s : State K V} (h : Opened s)
    (made : ∀ {o c}, o < s.chain.next → (s.operations o).body = .join c → c < s.nextCall) {o : Nat}
    (late : ∀ c, First s o → (s.operations o).body = .join c →
      (s.calls c).index < maxArrayLength → s.chain.status o ≠ .waiting) : Opened (s.settle o) := by
  refine opened_frame h made rfl (Nat.le_refl _) (fun _ => rfl) (fun _ => rfl) (fun _ => rfl) ?_
    (fun _ => id) h.filled
  intro p c plt first body small waiting
  have other : p ≠ o := by
    rintro rfl
    exact late c first body small waiting
  exact Or.inl (by simpa [State.settle, Chain.settle, update_of_ne other] using waiting)

theorem opened_startJoin {s : State K V} (wired : Wired s) (phases : Phases s) (h : Opened s)
    {o c : Nat} (ready : s.chain.ready o = true) (body : (s.operations o).body = .join c)
    (live : FirstFindsLive s o) : Opened (s.startJoin o c (s.chain.lane o)) := by
  obtain ⟨lt, waiting, _⟩ := (Chain.ready_iff _ _).mp ready
  have made : ∀ {o c}, o < s.chain.next → (s.operations o).body = .join c → c < s.nextCall :=
    fun lt body => (wired.join_body lt body).1
  have accepts : First s o → s.refuses c (s.chain.lane o) = false := fun first =>
    live_accepts wired.stored (live c body first) (first_unprocessed wired phases lt first waiting)
  unfold State.startJoin
  split
  · rename_i refused
    have settled : Opened (s.settle o) := opened_settle h made (by
      intro _ first
      rw [accepts first] at refused
      cases refused)
    rw [State.settleJoin, begin_settle]
    exact opened_quiet settled made (quiet_setPhase _ _ _) rfl
  · split
    · rename_i long
      refine opened_frame h made rfl (Nat.le_refl _) (fun _ => rfl) (fun _ => rfl) ?_ ?_
        (fun _ => id) h.filled
      · intro d _
        by_cases same : d = c
        · subst d
          simp [State.settleJoin, State.settle, State.setPhase, State.setValues, State.setItem,
            State.begin]
        · simp [State.settleJoin, State.settle, State.setPhase, State.setValues, State.setItem,
            State.begin, update_of_ne same]
      · intro p d plt _ pbody small pwaiting
        have other : p ≠ o := by
          rintro rfl
          rw [body] at pbody
          cases pbody
          omega
        left
        simpa [State.settleJoin, State.settle, State.setPhase, State.setValues, State.setItem,
          State.begin, Chain.start, Chain.settle, update_of_ne other] using pwaiting
    · refine opened_frame h made rfl (Nat.le_refl _) (fun _ => rfl) (fun _ => update_body _ _)
        (fun _ => rfl) ?_ ?_ ?_
      · intro p d plt _ _ _ pwaiting
        by_cases same : p = o
        · subst p
          exact Or.inr ⟨_, List.mem_cons_of_mem _ List.mem_cons_self, ⟨_, _, _, _, _, rfl⟩⟩
        · left
          simpa [State.appendValue, State.record, State.setStage, State.setValues, State.setItem,
            State.begin, Chain.start, update_of_ne same] using pwaiting
      · intro e mem
        exact List.mem_cons_of_mem _ (List.mem_cons_of_mem _ mem)
      · refine ⟨?_, ?_, h.filled⟩
        · intro p i started
          cases started
        · intro p i started
          cases started

theorem opened_startExpire {s : State K V} (wired : Wired s) (h : Opened s) {o a : Nat}
    (ready : s.chain.ready o = true) (body : (s.operations o).body = .expire a) :
    Opened (s.startExpire o a (s.chain.lane o)) := by
  obtain ⟨lt, waiting, _⟩ := (Chain.ready_iff _ _).mp ready
  have made : ∀ {o c}, o < s.chain.next → (s.operations o).body = .join c → c < s.nextCall :=
    fun lt body => (wired.join_body lt body).1
  have settled : Opened (s.settle o) := opened_settle h made (by
    intro c _ joins
    rw [body] at joins
    cases joins)
  unfold State.startExpire
  split
  · rw [begin_settle]
    exact settled
  · split
    · have only := rearm_armsOnly wired lt body
      have quiet := quiet_settle (quiet_armsOnly only) lt
      rw [begin_settle] at quiet
      exact opened_quiet settled made quiet only.nextItem
    · refine opened_frame h made rfl (Nat.le_refl _) (fun _ => rfl) (fun _ => update_body _ _)
        (fun _ => rfl) ?_ ?_ ?_
      · intro p c plt _ pbody _ pwaiting
        have other : p ≠ o := bodies_apart body pbody nofun
        left
        simpa [State.enterDeadline, State.record, State.setStage, State.setProcessed, State.setItem,
          State.begin, Chain.start, update_of_ne other] using pwaiting
      · exact fun e mem => List.mem_cons_of_mem _ mem
      · refine ⟨?_, h.filled⟩
        intro p i started
        cases started
        -- the first operation of the lane has settled, since this one is ready behind it
        obtain ⟨q, c, qlt, lane, first, qbody, _, progress⟩ := h.first (wired.lane_item lt)
        have other : q ≠ o := by
          rintro rfl
          rw [body] at qbody
          cases qbody
        have before : q < o := by
          rcases Nat.lt_trichotomy q o with less | same | more
          · exact less
          · exact absurd same other
          · exact absurd lane.symm (first o more)
        refine progress.resolve_left ?_
        rw [Chain.ready_settled_before wired.chain ready before lane]
        simp

theorem opened_continueOperation {s t : State K V} (wired : Wired s) (h : Opened s) {o : Nat}
    (next : s.continueOperation o = some t) : Opened t := by
  have made : ∀ {o c}, o < s.chain.next → (s.operations o).body = .join c → c < s.nextCall :=
    fun lt body => (wired.join_body lt body).1
  obtain ⟨lt, running, ⟨c, processed, body, _, rfl⟩ | ⟨c, body, _, rfl⟩ | ⟨b, _, body, _, rfl⟩⟩ :=
    continueOperation_cases next
  · have marked : Opened (s.setProcessed (s.chain.lane o) processed) :=
      opened_frame h made rfl (Nat.le_refl _) (fun _ => rfl) (fun _ => rfl) (fun _ => rfl)
        (fun _ _ _ _ waiting => Or.inl waiting) (fun _ => id) h.filled
    have settled := opened_settle marked made (o := o) (by simp [State.setProcessed, State.setItem, running])
    have named : ((s.setProcessed (s.chain.lane o) processed).items (s.chain.lane o)).key =
        (s.calls c).key := by
      simpa [State.setProcessed, State.setItem] using (wired.join_body lt body).2
    have quiet := quiet_concludeJoin (s := s.setProcessed (s.chain.lane o) processed)
      (wired.lane_item lt) named processed
    have origins := origins_concludeJoin (s := s.setProcessed (s.chain.lane o) processed)
      (wired.lane_item lt) named processed
    exact opened_quiet settled made (quiet_trans (quiet_settle quiet lt) (quiet_setPhase _ _ _))
      origins.nextItem
  · have settled := opened_settle h made (o := o) (by simp [running])
    exact opened_quiet settled made (quiet_setPhase _ _ _) rfl
  · have settled := opened_settle h made (o := o) (by simp [running])
    refine opened_quiet settled made (quiet_settle (quiet_concludeExpire s b _) lt) ?_
    exact (origins_continueOperation wired next).nextItem

/-- Without an abort the creation of a group queues nothing. -/
theorem createItem_chain {s : State K V} {c : Nat}
    (unaborted : 0 < (s.calls c).ttl → (s.calls c).context.deadline.isSome = true →
      s.aborted (s.calls c).context.signal = false) :
    (s.createItem c).chain = s.chain ∧ (s.createItem c).operations = s.operations := by
  unfold State.createItem
  split
  · rename_i limited
    have calm : ((s.calls c).context.deadline.isSome &&
        (s.insertItem c).aborted (s.calls c).context.signal) = false := by
      cases given : (s.calls c).context.deadline.isSome with
      | false => rfl
      | true => exact unaborted limited given
    unfold State.armDeadline
    rw [if_neg (by rw [calm]; simp)]
    exact ⟨rfl, rfl⟩
  · exact ⟨rfl, rfl⟩

/- The pass that creates a group: the operation of the call is the first on the lane. -/
theorem iterate_creates {s : State K V} (wired : Wired s) {c : Nat}
    (missing : s.findLive (s.calls c).key = none) (small : ¬ maxArrayLength < (s.calls c).index + 1)
    (unaborted : PassUnaborted s c) :
    (s.iterate c).chain = s.chain.attach s.nextItem ∧
      (s.iterate c).operations = update s.operations s.chain.next ⟨.join c, .idle⟩ ∧
      ((s.iterate c).calls c).phase = .awaiting s.chain.next ∧ First (s.iterate c) s.chain.next := by
  obtain ⟨chain, operations⟩ := createItem_chain (unaborted missing)
  have created : s.iterate c = (s.createItem c).joinItem c s.nextItem := by
    unfold State.iterate
    rw [missing]
    simp [small]
  have attached : (s.iterate c).chain = s.chain.attach s.nextItem := by
    simp [created, State.joinItem, State.enqueue, chain]
  refine ⟨attached, ?_, ?_, ?_⟩
  · simp [created, State.joinItem, State.enqueue, chain, operations]
  · simp [created, State.joinItem, chain]
  · intro p before
    have old := wired.lane_item before
    rw [attached]
    simp only [Chain.attach, update_self, update_of_ne (Nat.ne_of_lt before)]
    omega

theorem opened_iterate {s : State K V} (wired : Wired s) (h : Opened s) {c : Nat}
    (unaborted : PassUnaborted s c) : Opened (s.iterate c) := by
  have made : ∀ {o c}, o < s.chain.next → (s.operations o).body = .join c → c < s.nextCall :=
    fun lt body => (wired.join_body lt body).1
  have quiet := quiet_iterate s c
  cases live : s.findLive (s.calls c).key with
  | some i =>
    have nextItem : (s.iterate c).nextItem = s.nextItem := by
      simp [State.iterate, live, State.joinItem, State.enqueue]
    exact opened_quiet h made quiet nextItem
  | none =>
    by_cases small : maxArrayLength < (s.calls c).index + 1
    · have nextItem : (s.iterate c).nextItem = s.nextItem := by
        simp only [State.iterate, live, small, ↓reduceIte]
        exact (origins_leave s c _).nextItem
      exact opened_quiet h made quiet nextItem
    · obtain ⟨chain, operations, _, first⟩ := iterate_creates wired live small unaborted
      have nextItem : (s.iterate c).nextItem = s.nextItem + 1 := by
        simp only [State.iterate, live, small, ↓reduceIte]
        exact (createItem_new s c).2.2.1
      have index : ((s.iterate c).calls c).index = (s.calls c).index := by
        simp [State.iterate, live, small, State.joinItem, (createItem_new s c).1]
      constructor
      · intro i ilt
        by_cases new : i = s.nextItem
        · subst i
          refine ⟨s.chain.next, c, ?_, ?_, first, ?_, ?_, Or.inl ?_⟩
          · simp [chain, Chain.attach]
          · simp [chain, Chain.attach]
          · simp [operations]
          · rw [index]
            omega
          · simp [chain, Chain.attach]
        · obtain ⟨o, d, lt, lane, ofirst, body, bounded, progress⟩ := h.first (i := i) (by omega)
          refine ⟨o, d, Nat.lt_of_lt_of_le lt quiet.keeps.next_le, (quiet.keeps.lane lt).trans lane,
            first_kept quiet.keeps.lane lt ofirst, ?_, ?_, ?_⟩
          · rw [quiet.keeps.operation lt]
            exact body
          · rw [(quiet.call (made lt body)).2.1]
            exact bounded
          · rw [quiet.keeps.status lt, quiet.history]
            exact progress
      · rw [quiet.history]
        exact h.filled

theorem opened_joinValue {s : State K V} (wired : Wired s) (h : Opened s) {context : Context}
    {key : K} {index : Number} {value : V}
    (unaborted : (slotIndex index).isSome = true → s.findLive key = none →
      0 < s.effectiveTTL context → context.deadline.isSome = true →
      s.aborted context.signal = false) : Opened (s.joinValue context key index value) := by
  have made : ∀ {o c}, o < s.chain.next → (s.operations o).body = .join c → c < s.nextCall :=
    fun lt body => (wired.join_body lt body).1
  rcases joinValue_cases s context key index value with eq | ⟨slot, valid, eq | ⟨active, eq⟩⟩ <;> rw [eq]
  · exact opened_quiet h made (quiet_enterCall s _ _ _ _ _) rfl
  · exact opened_quiet h made (quiet_enterCall s _ _ _ _ _) rfl
  · have entered := opened_quiet h made (quiet_trans (quiet_enterCall s context key slot value .entering)
      (quiet_active _ active)) rfl
    have wires := wired_enterCall wired context key slot value .entering (by simp)
    refine opened_iterate (wired_active wires active) entered ?_
    intro missing limited given
    simp only [State.setActive, State.enterCall, update_self] at missing limited given ⊢
    exact unaborted (by simp [valid]) missing limited given

theorem opened_step {s t : State K V} {a : Action K V} (wired : Wired s) (phases : Phases s)
    (h : Opened s) (inTime : InTime s a) (next : step s a = some t) : Opened t := by
  have made : ∀ {o c}, o < s.chain.next → (s.operations o).body = .join c → c < s.nextCall :=
    fun lt body => (wired.join_body lt body).1
  have same : ∀ {u : State K V}, u.objects = s.objects → u.history = s.history → Opened u := by
    intro u objects history
    obtain ⟨-, -, -, nextItem, -⟩ := objects_same objects
    exact opened_quiet h made (quiet_frame objects history) nextItem
  cases a with
  | joinValue context key index value =>
    cases next
    exact opened_joinValue wired h inTime
  | enter c =>
    obtain ⟨_, _, _, rfl⟩ := enter_cases next
    exact opened_iterate (wired_active wired (s.activeTTLJoins + 1))
      (same rfl rfl) inTime
  | startOperation o =>
    obtain ⟨ready, ⟨c, body, rfl⟩ | ⟨b, body, rfl⟩⟩ := startOperation_cases next
    · exact opened_startJoin wired phases h ready body inTime
    · exact opened_startExpire wired h ready body
  | callbackReturns o outcome =>
    obtain ⟨_, _, _, ⟨c, _, rfl⟩ | ⟨b, _, rfl⟩⟩ := callbackReturns_cases next <;>
    · refine opened_frame h made rfl (Nat.le_refl _) (fun _ => rfl) (fun _ => update_body _ _)
        (fun _ => rfl) (fun _ _ _ _ waiting => Or.inl waiting)
        (fun e mem => List.mem_cons_of_mem _ mem) ⟨?_, h.filled⟩
      intro p i started
      cases started
  | continueOperation o => exact opened_continueOperation wired h next
  | resume c =>
    obtain ⟨_, ⟨_, rfl⟩ | ⟨phase, rfl⟩ | ⟨_, _, rfl⟩⟩ := resume_cases next
    · exact opened_quiet h made (quiet_leave s c _) (origins_leave s c _).nextItem
    · exact opened_iterate wired h (inTime phase)
    · exact opened_quiet h made (quiet_leave s c _) (origins_leave s c _).nextItem
  | fire b =>
    obtain ⟨lt, _, rfl⟩ := fire_cases next
    have only := armsOnly_trans (disarm_armsOnly s b) (expire_armsOnly (s.disarm b) lt)
    exact opened_quiet h made (quiet_armsOnly only) only.nextItem
  | _ =>
    obtain ⟨objects, history⟩ := outside_step next trivial
    exact same objects history

/-- All that the progress of a call rests on. -/
structure Sound (s : State K V) : Prop where
  wired : Wired s
  groups : Groups s
  balanced : Balanced s
  phases : Phases s
  opened : Opened s

theorem sound_step {s t : State K V} {a : Action K V} (h : Sound s) (inTime : InTime s a)
    (next : step s a = some t) : Sound t where
  wired := wired_step h.wired next
  groups := groups_step h.wired h.groups next
  balanced := balanced_step h.wired h.groups h.balanced next
  phases := phases_step h.wired h.phases next
  opened := opened_step h.wired h.phases h.opened inTime next

theorem sound_reachable [Inhabited K] [Inhabited V] {s : State K V}
    (reach : ReachableWith InTime s) : Sound s := by
  obtain ⟨s₀, start, run⟩ := reach
  have origin : ReachableWith InTime s₀ := ⟨s₀, start, .refl s₀⟩
  obtain ⟨wired, groups⟩ := groups_reachable origin
  have opened : Opened s₀ := by
    obtain ⟨ttlMs, renewTTL, metricsEnabled, now, contextNow, aborted, rfl⟩ := start
    constructor <;> simp [initial, Filled]
  exact Transitions.steps_invariant Sound (fun _ _ _ h => sound_step h) run
    ⟨wired, groups, (balanced_reachable origin).2, phases_reachable origin, opened⟩

end Opening

end JoinStorage
