import TsServiceLib.Store.JoinDelivery

/-!
Groups and their expiry. A group with a deadline is watched until it is
processed: a timer or an abort listener is installed for it, or an expiry
operation is pending on its lane. The three places that cancel a registration
are each followed by one that watches the group again, so the invariant is
stated with the groups that are spared in between.
-/
namespace JoinStorage
open OrderedMaps TailChain Numbers Function

section Watch
variable {K V : Type}

/-- A timer is armed, or an abort listener registered, for the item. -/
def ArmedFor (s : State K V) (i : Nat) : Prop :=
  ∃ a, a < s.nextArm ∧ (s.arms a).item = i ∧ (s.arms a).armed = true ∧ (s.arms a).retired = false

/-- An expiry operation is queued or running on the item. -/
def ExpiryPending (s : State K V) (i : Nat) : Prop :=
  ∃ o a, o < s.chain.next ∧ s.chain.lane o = i ∧ (s.operations o).body = .expire a ∧
    s.chain.status o ≠ .settled

structure Guarded (s : State K V) (spared : Nat → Prop) : Prop where
  cancels : ∀ {i a}, i < s.nextItem → (s.items i).cancelDeadline = some a →
    a < s.nextArm ∧ (s.arms a).item = i
  watched : ∀ {i}, i < s.nextItem → ¬ spared i → (s.items i).deadline.isSome = true →
    (s.items i).processed = false → ArmedFor s i ∨ ExpiryPending s i

def nobody (_ : Nat) : Prop := False

theorem guarded_frame {s t : State K V} {spared spared' : Nat → Prop} (h : Guarded s spared)
    (arms : t.arms = s.arms) (nextArm : t.nextArm = s.nextArm) (nextItem : t.nextItem = s.nextItem)
    (cancel : ∀ i, i < s.nextItem → (t.items i).cancelDeadline = (s.items i).cancelDeadline)
    (item : ∀ i, i < s.nextItem → ¬ spared' i → (t.items i).deadline.isSome = true →
      (t.items i).processed = false →
      ¬ spared i ∧ (s.items i).deadline.isSome = true ∧ (s.items i).processed = false)
    (expiries : ∀ o a, o < s.chain.next → ¬ spared' (s.chain.lane o) →
      (s.operations o).body = .expire a → s.chain.status o ≠ .settled →
      o < t.chain.next ∧ t.chain.lane o = s.chain.lane o ∧ (t.operations o).body = .expire a ∧
        t.chain.status o ≠ .settled) : Guarded t spared' where
  cancels := by
    intro i a lt eq
    rw [nextItem] at lt
    rw [cancel i lt] at eq
    rw [nextArm, arms]
    exact h.cancels lt eq
  watched := by
    intro i lt open' deadline unprocessed
    rw [nextItem] at lt
    obtain ⟨notSpared, before, unprocessedBefore⟩ := item i lt open' deadline unprocessed
    rcases h.watched lt notSpared before unprocessedBefore with ⟨a, armed⟩ | ⟨o, a, olt, lane, body, unsettled⟩
    · refine Or.inl ⟨a, ?_⟩
      rw [nextArm, arms]
      exact armed
    · subst lane
      obtain ⟨tlt, tlane, tbody, tunsettled⟩ := expiries o a olt open' body unsettled
      exact Or.inr ⟨o, a, tlt, tlane, tbody, tunsettled⟩

/-- Pieces that touch neither registrations nor deadlines, and settle nothing. -/
theorem guarded_same {s t : State K V} {spared : Nat → Prop} (h : Guarded s spared)
    (arms : t.arms = s.arms) (nextArm : t.nextArm = s.nextArm) (nextItem : t.nextItem = s.nextItem)
    (items : t.items = s.items) (keeps : KeepsOperations s t) : Guarded t spared := by
  refine guarded_frame h arms nextArm nextItem ?_ ?_ ?_
  · intro i _
    rw [items]
  · intro i _ notSpared deadline unprocessed
    rw [items] at deadline unprocessed
    exact ⟨notSpared, deadline, unprocessed⟩
  · intro o a olt _ body unsettled
    rw [keeps.lane olt, keeps.operation olt, keeps.status olt]
    exact ⟨Nat.lt_of_lt_of_le olt keeps.next_le, rfl, body, unsettled⟩

theorem guarded_mono {s : State K V} {spared spared' : Nat → Prop} (h : Guarded s spared)
    (more : ∀ i, spared i → spared' i) : Guarded s spared' where
  cancels := h.cancels
  watched := fun lt notSpared => h.watched lt (fun was => notSpared (more _ was))

theorem guarded_processed {s : State K V} {i : Nat} (h : Guarded s (· = i))
    (processed : (s.items i).processed = true) : Guarded s nobody where
  cancels := h.cancels
  watched := by
    intro j lt _ deadline unprocessed
    refine h.watched lt ?_ deadline unprocessed
    rintro rfl
    rw [processed] at unprocessed
    cases unprocessed

theorem cancelledArms_other {s : State K V} {spared : Nat → Prop} (h : Guarded s spared) {i a : Nat}
    (lt : i < s.nextItem) (other : (s.arms a).item ≠ i) : s.cancelledArms i a = s.arms a := by
  unfold State.cancelledArms
  cases cancel : (s.items i).cancelDeadline with
  | none => rfl
  | some b =>
    have different : a ≠ b := by
      rintro rfl
      exact other (h.cancels lt cancel).2
    simp only
    split
    · rfl
    · exact update_of_ne different _ _

theorem guarded_cancelDeadline {s : State K V} {i : Nat} (h : Guarded s (· = i))
    (lt : i < s.nextItem) : Guarded (s.cancelDeadline i) (· = i) where
  cancels := by
    intro j a jlt eq
    obtain ⟨alt, item⟩ := h.cancels jlt eq
    exact ⟨alt, (cancelledArms_same s i a).2.2.trans item⟩
  watched := by
    intro j jlt other deadline unprocessed
    rcases h.watched jlt other deadline unprocessed with ⟨a, alt, item, armed⟩ | pending
    · have kept : s.cancelledArms i a = s.arms a := cancelledArms_other h lt (item ▸ other)
      refine Or.inl ⟨a, alt, ?_⟩
      simp only [State.cancelDeadline, kept]
      exact ⟨item, armed⟩
    · exact Or.inr pending

theorem guarded_enqueue {s : State K V} {a : Nat} (h : Guarded s (· = (s.arms a).item)) :
    Guarded (s.enqueue (s.arms a).item (.expire a)) nobody where
  cancels := h.cancels
  watched := by
    intro j jlt _ deadline unprocessed
    by_cases here : j = (s.arms a).item
    · subst j
      refine Or.inr ⟨s.chain.next, a, Nat.lt_succ_self _, ?_⟩
      simp [State.enqueue, Chain.attach]
    · rcases h.watched jlt here deadline unprocessed with armed | ⟨o, b, olt, lane, body, unsettled⟩
      · exact Or.inl armed
      · have old : o ≠ s.chain.next := Nat.ne_of_lt olt
        refine Or.inr ⟨o, b, Nat.lt_succ_of_lt olt, ?_⟩
        simpa [State.enqueue, Chain.attach, update_of_ne old] using ⟨lane, body, unsettled⟩

theorem guarded_expire {s : State K V} {a : Nat} (h : Guarded s (· = (s.arms a).item))
    (lt : (s.arms a).item < s.nextItem) (active : (s.arms a).retired = false) :
    Guarded (s.expire a) nobody := by
  unfold State.expire
  rw [if_neg (by simp [active])]
  have cancelled := guarded_cancelDeadline h lt
  have item := (cancelledArms_same s (s.arms a).item a).2.2
  have queued := guarded_enqueue (s := s.cancelDeadline (s.arms a).item) (a := a)
    (by simpa [State.cancelDeadline, item] using cancelled)
  simpa [State.cancelDeadline, item] using queued

theorem guarded_register {s : State K V} {i : Nat} (h : Guarded s (· = i)) (context : Context)
    (key : K) : Guarded (s.register context key i) nobody where
  cancels := by
    intro j a jlt eq
    by_cases here : j = i
    · subst j
      simp only [State.register, update_self, Option.some.injEq] at eq
      subst a
      simp [State.register]
    · simp only [State.register, update_of_ne here] at eq
      obtain ⟨alt, item⟩ := h.cancels jlt eq
      refine ⟨Nat.lt_succ_of_lt alt, ?_⟩
      simpa [State.register, update_of_ne (Nat.ne_of_lt alt)] using item
  watched := by
    intro j jlt _ deadline unprocessed
    by_cases here : j = i
    · subst j
      exact Or.inl ⟨s.nextArm, Nat.lt_succ_self _, by simp [State.register]⟩
    · simp only [State.register, update_of_ne here] at deadline unprocessed
      rcases h.watched jlt here deadline unprocessed with ⟨a, alt, item, armed⟩ | pending
      · refine Or.inl ⟨a, Nat.lt_succ_of_lt alt, ?_⟩
        simpa [State.register, update_of_ne (Nat.ne_of_lt alt)] using ⟨item, armed⟩
      · exact Or.inr pending

theorem guarded_armDeadline {s : State K V} {i : Nat} (h : Guarded s (· = i))
    (lt : i < s.nextItem) (context : Context) (key : K) :
    Guarded (s.armDeadline context key i) nobody := by
  have registered := guarded_register h context key
  unfold State.armDeadline
  split
  · have item : ((s.register context key i).arms s.nextArm).item = i := by simp [State.register]
    refine guarded_expire (guarded_mono registered (fun _ impossible => impossible.elim)) ?_ ?_
    · rw [item]
      exact lt
    · simp [State.register]
  · exact registered

theorem guarded_fire {s t : State K V} (wired_item : ∀ {a}, a < s.nextArm → (s.arms a).item < s.nextItem)
    (h : Guarded s nobody) {a : Nat} (next : s.fire a = some t) : Guarded t nobody := by
  obtain ⟨alt, _, rfl⟩ := fire_cases next
  have itemOf : ∀ b, ((s.disarm a).arms b).item = (s.arms b).item := by
    intro b
    by_cases same : b = a
    · subst b
      simp [State.disarm]
    · simp [State.disarm, update_of_ne same]
  -- firing only takes the registration of `a` away, and a retired one counted for nothing
  have disarmed : Guarded (s.disarm a) fun i => i = (s.arms a).item ∧ (s.arms a).retired = false := by
    constructor
    · intro i b ilt eq
      obtain ⟨blt, item⟩ := h.cancels ilt eq
      exact ⟨blt, (itemOf b).trans item⟩
    · intro i ilt notSpared deadline unprocessed
      rcases h.watched ilt (fun f => f) deadline unprocessed with ⟨b, blt, item, armed, active⟩ | pending
      · have other : b ≠ a := by
          rintro rfl
          exact notSpared ⟨item.symm, active⟩
        refine Or.inl ⟨b, blt, ?_⟩
        simpa [State.disarm, update_of_ne other] using ⟨item, armed, active⟩
      · exact Or.inr pending
  by_cases retired : (s.arms a).retired = true
  · have same : (s.disarm a).expire a = s.disarm a := by
      simp [State.expire, State.disarm, retired]
    rw [same]
    exact guarded_mono disarmed (by simp [retired])
  · refine guarded_expire (guarded_mono disarmed ?_) ?_ ?_
    · intro i spared
      rw [itemOf]
      exact spared.1
    · rw [itemOf]
      exact wired_item alt
    · simpa [State.disarm] using retired

/-- Writing the slots of one group leaves the rest of every group alone. -/
theorem setValues_item (s : State K V) (i : Nat) (values : List (List V)) (j : Nat) :
    ∃ v, (s.setValues i values).items j = { s.items j with values := v } := by
  by_cases same : j = i
  · subst j
    exact ⟨values, by simp [State.setValues, State.setItem]⟩
  · exact ⟨(s.items j).values, by simp [State.setValues, State.setItem, update_of_ne same]⟩

/-- An expiry operation runs only inside, or past, the callback of a group it has processed. -/
def Closing (s : State K V) : Prop :=
  ∀ o a, o < s.chain.next → s.chain.status o = .running → (s.operations o).body = .expire a →
    (s.items (s.chain.lane o)).processed = true

theorem closing_quiet {s t : State K V} (h : Closing s)
    (lanes : ∀ {o}, o < s.chain.next → s.chain.lane o < s.nextItem) (quiet : Quiet s t) :
    Closing t := by
  intro o a lt running body
  by_cases old : o < s.chain.next
  · rw [quiet.keeps.status old] at running
    rw [quiet.keeps.operation old] at body
    rw [quiet.keeps.lane old, (quiet.item (lanes old)).2.2]
    exact h o a old running body
  · rw [(quiet.waiting (by omega) lt).1] at running
    cases running

theorem closing_settle {s : State K V} (h : Closing s) (o : Nat) : Closing (s.settle o) := by
  intro p a lt running body
  by_cases same : p = o
  · subst p
    simp [State.settle, Chain.settle] at running
  · exact h p a lt (by simpa [State.settle, Chain.settle, update_of_ne same] using running) body

theorem closing_returned {s t : State K V} (h : Closing s) {o : Nat} {outcome : CallbackOutcome}
    (next : s.callbackReturns o outcome = some t) : Closing t := by
  obtain ⟨_, _, _, ⟨c, _, rfl⟩ | ⟨b, _, rfl⟩⟩ := callbackReturns_cases next <;>
  · intro p a lt running body
    exact h p a lt running ((update_body _ p).symm.trans body)

end Watch

section Steps
variable {K V : Type} [DecidableEq K]

theorem closing_startJoin {s : State K V} (wired : Wired s) (h : Closing s) {o c : Nat}
    (lt : o < s.chain.next) (body : (s.operations o).body = .join c) :
    Closing (s.startJoin o c (s.chain.lane o)) := by
  have settled := closing_settle h o
  unfold State.startJoin
  split
  · rw [State.settleJoin, begin_settle]
    exact closing_quiet settled wired.lane_item (quiet_setPhase _ _ _)
  · split
    · intro p a plt running pbody
      by_cases same : p = o
      · subst p
        simp [State.settleJoin, State.setPhase, State.settle, Chain.settle] at running
      · have before : s.chain.status p = .running := by
          simpa [State.settleJoin, State.setPhase, State.settle, Chain.settle, State.setValues,
            State.setItem, State.begin, Chain.start, update_of_ne same] using running
        obtain ⟨v, item⟩ := setValues_item s (s.chain.lane o)
          (State.padValues (s.items (s.chain.lane o)).values (s.calls c).index) (s.chain.lane p)
        exact (congrArg Item.processed item).trans (h p a plt before pbody)
    · intro p a plt running pbody
      have same : p ≠ o := by
        rintro rfl
        have kept := (update_body (f := s.operations) (o := p) .inCallback p).symm.trans pbody
        rw [body] at kept
        cases kept
      have before : s.chain.status p = .running := by
        simpa [State.appendValue, State.record, State.setStage, State.setValues, State.setItem,
          State.begin, Chain.start, update_of_ne same] using running
      have kept : (s.operations p).body = .expire a := (update_body _ p).symm.trans pbody
      obtain ⟨v, item⟩ := setValues_item s (s.chain.lane o) (State.pushValue
        (s.items (s.chain.lane o)).values (s.calls c).index (s.calls c).value) (s.chain.lane p)
      exact (congrArg Item.processed item).trans (h p a plt before kept)

theorem rearm_armsOnly {s : State K V} (wired : Wired s) {o a : Nat} (lt : o < s.chain.next)
    (body : (s.operations o).body = .expire a) :
    ArmsOnly (s.begin o) ((s.begin o).rearm a (s.chain.lane o)) := by
  obtain ⟨alt, item⟩ := wired.expire_body lt body
  obtain ⟨ilt, named⟩ := wired.arm_item alt
  exact armsOnly_trans (cancelDeadline_armsOnly _ _)
    (armDeadline_armsOnly _ _ (item ▸ ilt) (item ▸ named))

theorem closing_startExpire {s : State K V} (wired : Wired s) (h : Closing s) {o a : Nat}
    (lt : o < s.chain.next) (body : (s.operations o).body = .expire a) :
    Closing (s.startExpire o a (s.chain.lane o)) := by
  have settled := closing_settle h o
  unfold State.startExpire
  split
  · rw [begin_settle]
    exact settled
  · split
    · have quiet := quiet_settle (quiet_armsOnly (rearm_armsOnly wired lt body)) lt
      rw [begin_settle] at quiet
      exact closing_quiet settled wired.lane_item quiet
    · intro p b plt running pbody
      by_cases here : s.chain.lane p = s.chain.lane o
      · simp [State.enterDeadline, State.record, State.setStage, State.setProcessed, State.setItem,
          State.begin, Chain.start, here]
      · have same : p ≠ o := fun eq => here (by rw [eq])
        have before : s.chain.status p = .running := by
          simpa [State.enterDeadline, State.record, State.setStage, State.setProcessed,
            State.setItem, State.begin, Chain.start, update_of_ne same] using running
        have kept : (s.operations p).body = .expire b := (update_body _ p).symm.trans pbody
        simpa [State.enterDeadline, State.record, State.setStage, State.setProcessed,
          State.setItem, State.begin, Chain.start, update_of_ne here] using h p b plt before kept

theorem closing_continueJoin {s : State K V} (wired : Wired s) (h : Closing s) {o c : Nat}
    {processed : Bool} (lt : o < s.chain.next) (running : s.chain.status o = .running)
    (body : (s.operations o).body = .join c) :
    Closing (s.continueJoin o c (s.chain.lane o) processed) := by
  have named : ((s.setProcessed (s.chain.lane o) processed).items (s.chain.lane o)).key =
      (s.calls c).key := by
    simpa [State.setProcessed, State.setItem] using (wired.join_body lt body).2
  have quiet := quiet_concludeJoin (s := s.setProcessed (s.chain.lane o) processed)
    (wired.lane_item lt) named processed
  have marked : Closing (s.setProcessed (s.chain.lane o) processed) := by
    intro p a plt prunning pbody
    -- the lane runs this join, so an expiry that runs belongs to another group
    have elsewhere : s.chain.lane p ≠ s.chain.lane o := by
      intro lane
      have same := Chain.running_unique wired.chain plt lt lane prunning running
      subst p
      have impossible := body.symm.trans pbody
      cases impossible
    simpa [State.setProcessed, State.setItem, update_of_ne elsewhere] using h p a plt prunning pbody
  have settled := closing_settle (closing_quiet marked wired.lane_item quiet) o
  exact settled

theorem closing_step {s t : State K V} {a : Action K V} (wired : Wired s) (h : Closing s)
    (next : step s a = some t) : Closing t := by
  cases a with
  | joinValue context key index value =>
    cases next
    exact closing_quiet h wired.lane_item (quiet_joinValue s context key index value)
  | enter c =>
    obtain ⟨_, _, _, rfl⟩ := enter_cases next
    exact closing_quiet h wired.lane_item (quiet_trans (quiet_active s _) (quiet_iterate _ c))
  | startOperation o =>
    obtain ⟨ready, ⟨c, body, rfl⟩ | ⟨b, body, rfl⟩⟩ := startOperation_cases next
    · exact closing_startJoin wired h ((Chain.ready_iff _ _).mp ready).1 body
    · exact closing_startExpire wired h ((Chain.ready_iff _ _).mp ready).1 body
  | callbackReturns o outcome => exact closing_returned h next
  | continueOperation o =>
    obtain ⟨lt, running, ⟨c, processed, body, _, rfl⟩ | ⟨c, _, _, rfl⟩ | ⟨b, _, _, _, rfl⟩⟩ :=
      continueOperation_cases next
    · exact closing_continueJoin wired h lt running body
    · exact closing_settle h o
    · exact closing_settle (closing_quiet h wired.lane_item (quiet_concludeExpire s b _)) o
  | resume c =>
    obtain ⟨_, ⟨_, rfl⟩ | ⟨_, rfl⟩ | ⟨_, _, rfl⟩⟩ := resume_cases next
    · exact closing_quiet h wired.lane_item (quiet_leave s c _)
    · exact closing_quiet h wired.lane_item (quiet_iterate s c)
    · exact closing_quiet h wired.lane_item (quiet_leave s c _)
  | fire b => exact closing_quiet h wired.lane_item (quiet_fire next)
  | _ =>
    obtain ⟨objects, history⟩ := outside_step next trivial
    exact closing_quiet h wired.lane_item (quiet_frame objects history)

/- A settling join operation is no expiry, so nobody loses the watch. -/
omit [DecidableEq K] in
theorem guarded_settleJoin {s t : State K V} (h : Guarded s nobody) {o c : Nat}
    (body : (s.operations o).body = .join c) (result : OperationResult)
    (arms : t.arms = s.arms) (nextArm : t.nextArm = s.nextArm) (nextItem : t.nextItem = s.nextItem)
    (item : ∀ i, ∃ v, t.items i = { s.items i with values := v })
    (next : t.chain.next = s.chain.next) (lane : t.chain.lane = s.chain.lane)
    (bodies : ∀ p, (t.operations p).body = (s.operations p).body)
    (status : ∀ p, p ≠ o → t.chain.status p = s.chain.status p) :
    Guarded (t.settleJoin o c result) nobody := by
  refine guarded_frame h arms nextArm nextItem ?_ ?_ ?_
  · intro i _
    obtain ⟨v, eq⟩ := item i
    simp [State.settleJoin, State.settle, State.setPhase, eq]
  · intro i _ _ deadline unprocessed
    obtain ⟨v, eq⟩ := item i
    simp only [State.settleJoin, State.settle, State.setPhase, eq] at deadline unprocessed
    exact ⟨fun f => f, deadline, unprocessed⟩
  · intro p a plt _ pbody unsettled
    have other : p ≠ o := bodies_apart body pbody (by simp)
    simpa [State.settleJoin, State.settle, State.setPhase, Chain.settle, update_of_ne other, next,
      lane, bodies p, status p other] using ⟨plt, pbody, unsettled⟩

theorem guarded_startJoin {s : State K V} (h : Guarded s nobody) {o c : Nat}
    (body : (s.operations o).body = .join c) :
    Guarded (s.startJoin o c (s.chain.lane o)) nobody := by
  have begun : ∀ p, p ≠ o → (s.begin o).chain.status p = s.chain.status p := by
    intro p other
    simp [State.begin, Chain.start, update_of_ne other]
  unfold State.startJoin
  split
  · exact guarded_settleJoin h body _ rfl rfl rfl (fun i => ⟨(s.items i).values, rfl⟩) rfl rfl
      (fun _ => rfl) begun
  · split
    · exact guarded_settleJoin h body _ rfl rfl rfl (setValues_item (s.begin o) _ _) rfl rfl
        (fun _ => rfl) begun
    · refine guarded_frame h rfl rfl rfl ?_ ?_ ?_
      · intro i _
        obtain ⟨v, eq⟩ := setValues_item (s.begin o) (s.chain.lane o) (State.pushValue
          (s.items (s.chain.lane o)).values (s.calls c).index (s.calls c).value) i
        exact (congrArg Item.cancelDeadline eq).trans rfl
      · intro i _ _ deadline unprocessed
        obtain ⟨v, eq⟩ := setValues_item (s.begin o) (s.chain.lane o) (State.pushValue
          (s.items (s.chain.lane o)).values (s.calls c).index (s.calls c).value) i
        refine ⟨fun f => f, ?_, (congrArg Item.processed eq).symm.trans unprocessed⟩
        exact (congrArg (Option.isSome ∘ Item.deadline) eq).symm.trans deadline
      · intro p a plt _ pbody unsettled
        refine ⟨plt, rfl, (update_body _ p).trans pbody, ?_⟩
        by_cases same : p = o
        · subst p
          simp [State.appendValue, State.record, State.setStage, State.setValues, State.setItem,
            State.begin, Chain.start]
        · exact fun settled => unsettled ((begun p same).symm.trans settled)

/- The expiry operation that settles may have been the only watch of its group. -/
omit [DecidableEq K] in
theorem guarded_settleExpire {s : State K V} (h : Guarded s nobody) (o : Nat) :
    Guarded (s.settle o) (· = s.chain.lane o) := by
  refine guarded_frame h rfl rfl rfl (fun _ _ => rfl) ?_ ?_
  · intro i _ _ deadline unprocessed
    exact ⟨fun f => f, deadline, unprocessed⟩
  · intro p a plt elsewhere pbody unsettled
    have other : p ≠ o := by
      rintro rfl
      exact elsewhere rfl
    simpa [State.settle, Chain.settle, update_of_ne other] using ⟨plt, pbody, unsettled⟩

theorem guarded_startExpire {s : State K V} (wired : Wired s) (h : Guarded s nobody) {o a : Nat}
    (lt : o < s.chain.next) : Guarded (s.startExpire o a (s.chain.lane o)) nobody := by
  have settled := guarded_settleExpire h o
  have ilt := wired.lane_item lt
  unfold State.startExpire
  split
  · rename_i processed
    rw [begin_settle]
    exact guarded_processed settled processed
  · split
    · rename_i early
      -- an early wake-up has no deadline in its context, so it only registers a timer
      have timer : (s.arms a).context.deadline = none := by
        simp only [State.wakesEarly, Bool.and_eq_true, Option.isNone_iff_eq_none] at early
        exact early.1
      have commute : ((s.begin o).rearm a (s.chain.lane o)).settle o =
          (s.settle o).rearm a (s.chain.lane o) := by
        simp only [State.rearm, State.armDeadline, State.begin, State.settle, timer,
          Option.isSome_none, Bool.false_and, Bool.false_eq_true, ↓reduceIte, State.cancelDeadline,
          State.register, Chain.start, Chain.settle, update_idem]
        rfl
      rw [commute]
      exact guarded_armDeadline (guarded_cancelDeadline settled ilt) ilt _ _
    · refine guarded_frame h rfl rfl rfl ?_ ?_ ?_
      · intro i _
        by_cases here : i = s.chain.lane o
        · subst i
          simp [State.enterDeadline, State.record, State.setStage, State.setProcessed,
            State.setItem, State.begin]
        · simp [State.enterDeadline, State.record, State.setStage, State.setProcessed,
            State.setItem, State.begin, update_of_ne here]
      · intro i _ _ deadline unprocessed
        by_cases here : i = s.chain.lane o
        · subst i
          simp [State.enterDeadline, State.record, State.setStage, State.setProcessed,
            State.setItem, State.begin] at unprocessed
        · simp only [State.enterDeadline, State.record, State.setStage, State.setProcessed,
            State.setItem, State.begin, update_of_ne here] at deadline unprocessed
          exact ⟨fun f => f, deadline, unprocessed⟩
      · intro p b plt _ pbody unsettled
        refine ⟨plt, rfl, (update_body _ p).trans pbody, ?_⟩
        by_cases same : p = o
        · subst p
          simp [State.enterDeadline, State.record, State.setStage, State.setProcessed,
            State.setItem, State.begin, Chain.start]
        · simpa [State.enterDeadline, State.record, State.setStage, State.setProcessed,
            State.setItem, State.begin, Chain.start, update_of_ne same] using unsettled

theorem guarded_removeAt {s : State K V} {spared : Nat → Prop} (h : Guarded s spared) (k : K)
    (i : Nat) (location : Location) (evict : Bool) :
    Guarded (s.removeAt k i location evict) spared := by
  obtain ⟨operations, chain, items, _, _, arms, nextItem, _, nextArm⟩ :=
    removeAt_same s k i location evict
  exact guarded_same h arms nextArm nextItem items (keepsOperations_same operations chain)

theorem guarded_concludeJoin {s : State K V} (h : Guarded s nobody) {c i : Nat} (processed : Bool)
    (lt : i < s.nextItem) (mark : (s.items i).processed = processed) :
    Guarded (s.concludeJoin c i processed) nobody := by
  have loosened : Guarded s (· = i) := guarded_mono h (fun _ impossible => impossible.elim)
  unfold State.concludeJoin
  split
  · exact h
  · rename_i location _
    split
    · rename_i done
      exact guarded_removeAt
        (guarded_processed (guarded_cancelDeadline loosened lt) (mark.trans done)) _ _ _ _
    · split
      · have moved : Guarded (s.republish c i location) (· = i) := by
          refine guarded_frame loosened rfl rfl rfl ?_ ?_ ?_
          · intro j _
            by_cases here : j = i
            · subst j
              simp [State.republish]
            · simp [State.republish, update_of_ne here]
          · intro j _ other deadline unprocessed
            simp only [State.republish, update_of_ne other] at deadline unprocessed
            exact ⟨other, deadline, unprocessed⟩
          · intro o a olt _ body unsettled
            exact ⟨olt, rfl, body, unsettled⟩
        exact guarded_armDeadline (guarded_cancelDeadline moved lt) lt _ _
      · exact h

theorem guarded_continueJoin {s : State K V} (wired : Wired s) (groups : Groups s)
    (h : Guarded s nobody) {o c : Nat} {processed : Bool} (lt : o < s.chain.next)
    (running : s.chain.status o = .running) (body : (s.operations o).body = .join c) :
    Guarded (s.continueJoin o c (s.chain.lane o) processed) nobody := by
  have unprocessed := groups.joining lt running body
  have ilt := wired.lane_item lt
  have marked : Guarded (s.setProcessed (s.chain.lane o) processed) nobody := by
    refine guarded_frame h rfl rfl rfl ?_ ?_ (fun _ _ olt _ pbody unsettled => ⟨olt, rfl, pbody, unsettled⟩)
    · intro i _
      by_cases here : i = s.chain.lane o
      · subst i
        simp [State.setProcessed, State.setItem]
      · simp [State.setProcessed, State.setItem, update_of_ne here]
    · intro i _ _ deadline after
      by_cases here : i = s.chain.lane o
      · subst i
        simp only [State.setProcessed, State.setItem, update_self] at deadline
        exact ⟨fun f => f, deadline, unprocessed⟩
      · simp only [State.setProcessed, State.setItem, update_of_ne here] at deadline after
        exact ⟨fun f => f, deadline, after⟩
  have named : ((s.setProcessed (s.chain.lane o) processed).items (s.chain.lane o)).key =
      (s.calls c).key := by
    simpa [State.setProcessed, State.setItem] using (wired.join_body lt body).2
  have concluded := guarded_concludeJoin (c := c) marked processed ilt
    (by simp [State.setProcessed, State.setItem])
  have keeps := concludeJoin_keepsOperations (s := s.setProcessed (s.chain.lane o) processed) ilt
    named processed
  refine guarded_settleJoin concluded (o := o) (c := c) ?_ _ rfl rfl rfl
    (fun i => ⟨_, rfl⟩) rfl rfl (fun _ => rfl) (fun _ _ => rfl)
  rw [keeps.operation lt]
  exact body

theorem guarded_continueExpire {s : State K V} (h : Guarded s nobody) (closing : Closing s)
    {o a : Nat} (lt : o < s.chain.next) (running : s.chain.status o = .running)
    (body : (s.operations o).body = .expire a) :
    Guarded (s.continueExpire o a (s.chain.lane o)) nobody := by
  have settled := guarded_processed (guarded_settleExpire h o) (closing o a lt running body)
  unfold State.continueExpire State.concludeExpire
  split
  · exact settled
  · rename_i location _
    obtain ⟨operations, chain, items, _, _, arms, nextItem, _, nextArm⟩ :=
      removeAt_same s (s.arms a).key (s.chain.lane o) location true
    refine guarded_same settled arms nextArm nextItem items (keepsOperations_same operations ?_)
    simp [State.settle, chain]

theorem guarded_iterate {s : State K V} (h : Guarded s nobody) (c : Nat) :
    Guarded (s.iterate c) nobody := by
  unfold State.iterate
  split
  · exact guarded_same h rfl rfl rfl rfl (quiet_joinItem s c _).keeps
  · split
    · unfold State.leave
      split <;> exact guarded_same h rfl rfl rfl rfl (keepsOperations_same rfl rfl)
    · have created : Guarded (s.createItem c) nobody := by
        have inserted : Guarded (s.insertItem c)
            fun i => i = s.nextItem ∧ 0 < (s.calls c).ttl := by
          constructor
          · intro i a ilt eq
            by_cases new : i = s.nextItem
            · subst i
              simp [State.insertItem, State.newItem] at eq
            · simp only [State.insertItem, update_of_ne new] at eq
              have old : i < s.nextItem := by
                have bound : i < s.nextItem + 1 := ilt
                omega
              exact h.cancels old eq
          · intro i ilt notSpared deadline unprocessed
            by_cases new : i = s.nextItem
            · subst i
              have endless : ¬ 0 < (s.calls c).ttl := fun pos => notSpared ⟨rfl, pos⟩
              simp [State.insertItem, State.newItem, deadlineAt_none endless] at deadline
            · simp only [State.insertItem, update_of_ne new] at deadline unprocessed
              have old : i < s.nextItem := by
                have bound : i < s.nextItem + 1 := ilt
                omega
              exact h.watched old (fun f => f) deadline unprocessed
        unfold State.createItem
        split
        · exact guarded_armDeadline (guarded_mono inserted (fun _ spared => spared.1))
            (Nat.lt_succ_self _) _ _
        · rename_i endless
          exact guarded_mono inserted (fun _ spared => endless spared.2)
      exact guarded_same created rfl rfl rfl rfl (quiet_joinItem (s.createItem c) c _).keeps

theorem guarded_step {s t : State K V} {a : Action K V} (wired : Wired s) (groups : Groups s)
    (closing : Closing s) (h : Guarded s nobody) (next : step s a = some t) : Guarded t nobody := by
  have same : ∀ {u : State K V}, u.workings = s.workings → Guarded u nobody := by
    intro u workings
    obtain ⟨operations, chain, items, nextItem, arms, nextArm⟩ := workings_same workings
    exact guarded_same h arms nextArm nextItem items (keepsOperations_same operations chain)
  cases a with
  | joinValue context key index value =>
    cases next
    rcases joinValue_cases s context key index value with eq | ⟨slot, _, eq | ⟨active, eq⟩⟩ <;> rw [eq]
    · exact same rfl
    · exact same rfl
    · refine guarded_iterate ?_ s.nextCall
      exact same rfl
  | enter c =>
    obtain ⟨_, _, _, rfl⟩ := enter_cases next
    refine guarded_iterate ?_ c
    exact same rfl
  | startOperation o =>
    obtain ⟨ready, ⟨c, body, rfl⟩ | ⟨b, body, rfl⟩⟩ := startOperation_cases next
    · exact guarded_startJoin h body
    · exact guarded_startExpire wired h ((Chain.ready_iff _ _).mp ready).1
  | callbackReturns o outcome =>
    obtain ⟨_, _, _, ⟨c, _, rfl⟩ | ⟨b, _, rfl⟩⟩ := callbackReturns_cases next <;>
    · refine guarded_frame h rfl rfl rfl (fun _ _ => rfl)
        (fun _ _ _ deadline unprocessed => ⟨fun f => f, deadline, unprocessed⟩) ?_
      intro p a plt _ body unsettled
      exact ⟨plt, rfl, (update_body _ p).trans body, unsettled⟩
  | continueOperation o =>
    obtain ⟨lt, running, ⟨c, processed, body, _, rfl⟩ | ⟨c, body, _, rfl⟩ | ⟨b, _, body, _, rfl⟩⟩ :=
      continueOperation_cases next
    · exact guarded_continueJoin wired groups h lt running body
    · exact guarded_settleJoin h body _ rfl rfl rfl (fun _ => ⟨_, rfl⟩) rfl rfl (fun _ => rfl)
        (fun _ _ => rfl)
    · exact guarded_continueExpire h closing lt running body
  | resume c =>
    obtain ⟨_, ⟨_, rfl⟩ | ⟨_, rfl⟩ | ⟨_, _, rfl⟩⟩ := resume_cases next
    · unfold State.leave
      split <;> exact same rfl
    · exact guarded_iterate h c
    · unfold State.leave
      split <;> exact same rfl
  | fire b => exact guarded_fire (fun lt => (wired.arm_item lt).1) h next
  | _ =>
    obtain ⟨objects, _⟩ := outside_step next trivial
    exact same (objects_workings objects)

end Steps

section Origins
variable {K V : Type}

/-- No group and no call is new; groups keep their creator, and a deadline once given. -/
structure Origins (s t : State K V) : Prop where
  nextItem : t.nextItem = s.nextItem
  nextCall : t.nextCall = s.nextCall
  item : ∀ i, (t.items i).deadlineCallback = (s.items i).deadlineCallback ∧
    ((s.items i).deadline.isSome = true → (t.items i).deadline.isSome = true)
  call : ∀ c, (t.calls c).context = (s.calls c).context ∧ (t.calls c).ttl = (s.calls c).ttl ∧
    (t.calls c).configuredTTL = (s.calls c).configuredTTL

theorem origins_trans {s t u : State K V} (st : Origins s t) (tu : Origins t u) : Origins s u where
  nextItem := tu.nextItem.trans st.nextItem
  nextCall := tu.nextCall.trans st.nextCall
  item := by
    intro i
    have first := st.item i
    have second := tu.item i
    exact ⟨second.1.trans first.1, fun given => second.2 (first.2 given)⟩
  call := by
    intro c
    have first := st.call c
    have second := tu.call c
    exact ⟨second.1.trans first.1, second.2.1.trans first.2.1, second.2.2.trans first.2.2⟩

def State.roster (s : State K V) := (s.items, s.nextItem, s.calls, s.nextCall)

theorem objects_roster {s t : State K V} (same : t.objects = s.objects) : t.roster = s.roster := by
  obtain ⟨-, -, items, nextItem, -, -, calls, nextCall⟩ := objects_same same
  simp only [State.roster, items, nextItem, calls, nextCall]

theorem origins_frame {s t : State K V} (same : t.roster = s.roster) : Origins s t := by
  obtain ⟨items, nextItem, calls, nextCall⟩ : t.items = s.items ∧ t.nextItem = s.nextItem ∧ t.calls = s.calls ∧
      t.nextCall = s.nextCall := by
    simpa only [State.roster, Prod.mk.injEq] using same
  refine ⟨nextItem, nextCall, ?_, ?_⟩
  · intro i
    simp [items]
  · intro c
    simp [calls]

theorem origins_armsOnly {s t : State K V} (only : ArmsOnly s t) : Origins s t := by
  refine ⟨only.nextItem, only.nextCall, ?_, ?_⟩
  · intro i
    obtain ⟨cancel, eq⟩ := only.item i
    simp [eq]
  · intro c
    simp [only.calls]

theorem origins_setItem (s : State K V) (i : Nat) (content : Item K V)
    (creator : content.deadlineCallback = (s.items i).deadlineCallback)
    (deadline : (s.items i).deadline.isSome = true → content.deadline.isSome = true) :
    Origins s (s.setItem i content) := by
  refine ⟨rfl, rfl, ?_, fun _ => ⟨rfl, rfl, rfl⟩⟩
  intro j
  by_cases here : j = i
  · subst j
    simpa [State.setItem] using ⟨creator, deadline⟩
  · simp [State.setItem, update_of_ne here]

theorem origins_call (s : State K V) (c : Nat) {record : Call K V}
    (same : record.context = (s.calls c).context ∧ record.ttl = (s.calls c).ttl ∧
      record.configuredTTL = (s.calls c).configuredTTL) :
    Origins s { s with calls := update s.calls c record } := by
  refine ⟨rfl, rfl, fun _ => ⟨rfl, id⟩, ?_⟩
  intro d
  by_cases here : d = c
  · subst d
    simpa using same
  · simp [update_of_ne here]

theorem origins_setPhase (s : State K V) (c : Nat) (phase : Phase) :
    Origins s (s.setPhase c phase) :=
  origins_call s c ⟨rfl, rfl, rfl⟩

theorem origins_settleJoin (s : State K V) (o c : Nat) (result : OperationResult) :
    Origins s (s.settleJoin o c result) :=
  origins_trans (origins_frame (t := s.settle o) rfl) (origins_setPhase _ c _)

theorem origins_setProcessed (s : State K V) (i : Nat) (processed : Bool) :
    Origins s (s.setProcessed i processed) :=
  origins_setItem s i _ rfl id

theorem origins_leave (s : State K V) (c : Nat) (phase : Phase) : Origins s (s.leave c phase) := by
  have settled := origins_setPhase s c phase
  unfold State.leave
  split
  · exact origins_trans settled (origins_frame rfl)
  · exact settled

theorem origins_joinItem (s : State K V) (c i : Nat) : Origins s (s.joinItem c i) :=
  origins_trans (origins_frame (t := s.enqueue i (.join c)) rfl)
    (origins_call (s.enqueue i (.join c)) c ⟨rfl, rfl, rfl⟩)

variable [DecidableEq K]

theorem origins_startOperation {s t : State K V} (wired : Wired s) {o : Nat}
    (next : s.startOperation o = some t) : Origins s t := by
  obtain ⟨ready, ⟨c, _, rfl⟩ | ⟨a, body, rfl⟩⟩ := startOperation_cases next
  · have begun : Origins s (s.begin o) := origins_frame rfl
    have written : ∀ values, Origins s ((s.begin o).setValues (s.chain.lane o) values) :=
      fun values => origins_trans begun (origins_setItem (s.begin o) _ _ rfl id)
    unfold State.startJoin
    split
    · exact origins_trans begun (origins_settleJoin _ o c _)
    · split
      · exact origins_trans (written _) (origins_settleJoin _ o c _)
      · exact origins_trans (written _) (origins_frame rfl)
  · have lt := ((Chain.ready_iff _ _).mp ready).1
    have begun : Origins s (s.begin o) := origins_frame rfl
    unfold State.startExpire
    split
    · exact origins_trans begun (origins_frame rfl)
    · split
      · have only := rearm_armsOnly wired lt body
        exact origins_trans begun (origins_trans (origins_armsOnly only)
          (origins_frame rfl))
      · exact origins_trans begun (origins_trans
          (origins_setProcessed (s.begin o) (s.chain.lane o) true) (origins_frame rfl))

theorem origins_removeAt (s : State K V) (k : K) (i : Nat) (location : Location) (evict : Bool) :
    Origins s (s.removeAt k i location evict) := by
  obtain ⟨_, _, items, calls, _, _, nextItem, nextCall, _⟩ := removeAt_same s k i location evict
  exact origins_frame (by simp only [State.roster, items, nextItem, calls, nextCall])

theorem origins_concludeJoin {s : State K V} {c i : Nat} (ilt : i < s.nextItem)
    (named : (s.items i).key = (s.calls c).key) (processed : Bool) :
    Origins s (s.concludeJoin c i processed) := by
  unfold State.concludeJoin
  split
  · exact origins_frame rfl
  · rename_i location _
    split
    · exact origins_trans (origins_armsOnly (cancelDeadline_armsOnly s i)) (origins_removeAt _ _ _ _ _)
    · split
      · rename_i renews
        have positive : 0 < (s.calls c).ttl := of_decide_eq_true (Bool.and_eq_true_iff.mp renews).2
        have moved : Origins s (s.republish c i location) :=
          origins_trans (origins_setItem s i ({ s.items i with
            deadline := (s.calls c).ttl.deadlineAt s.now }) rfl (fun _ => deadlineAt_isSome positive))
            (origins_frame rfl)
        exact origins_trans moved (origins_armsOnly (renew_armsOnly _ ilt named))
      · exact origins_frame rfl

theorem origins_continueOperation {s t : State K V} (wired : Wired s) {o : Nat}
    (next : s.continueOperation o = some t) : Origins s t := by
  obtain ⟨lt, _, ⟨c, processed, body, _, rfl⟩ | ⟨c, _, _, rfl⟩ | ⟨b, _, _, _, rfl⟩⟩ :=
    continueOperation_cases next
  · have named : ((s.setProcessed (s.chain.lane o) processed).items (s.chain.lane o)).key =
        (s.calls c).key := by
      simpa [State.setProcessed, State.setItem] using (wired.join_body lt body).2
    have concluded := origins_concludeJoin (s := s.setProcessed (s.chain.lane o) processed)
      (wired.lane_item lt) named processed
    exact origins_trans (origins_setProcessed s _ processed)
      (origins_trans concluded (origins_settleJoin _ o c _))
  · exact origins_settleJoin s o c _
  · unfold State.continueExpire State.concludeExpire
    split
    · exact origins_frame rfl
    · exact origins_trans (origins_removeAt _ _ _ _ _) (origins_frame rfl)

end Origins

section Promise
variable {K V : Type} [DecidableEq K]

/-- A pass of the call finds a live group if nothing of its context's deadline was left,
    or the deadline is NaN. -/
def LatePassFinds (s : State K V) (c : Nat) : Prop :=
  (s.calls c).context.deadline.isSome = true → ¬ 0 < (s.calls c).ttl →
    (s.findLive (s.calls c).key).isSome = true

/-- Calls made when their context's deadline was over, or is NaN, only join groups
    that exist. -/
def LateCallsJoin (s : State K V) : Action K V → Prop
  | .joinValue context key index _ => (slotIndex index).isSome = true →
      context.remainingMs s.contextNow = some 0 ∨ context.remainingMs s.contextNow = some .nan →
        (s.findLive key).isSome = true
  | .enter c => LatePassFinds s c
  | .resume c => (s.calls c).phase = .resuming (.value false) → LatePassFinds s c
  | _ => True

structure Creators (s : State K V) : Prop where
  configured : ∀ {c}, c < s.nextCall → (s.calls c).context.deadline = none →
    (s.calls c).ttl = (s.calls c).configuredTTL
  made : ∀ {i}, i < s.nextItem → (s.items i).deadlineCallback < s.nextCall
  timely : ∀ {i}, i < s.nextItem →
    (s.calls (s.items i).deadlineCallback).context.deadline.isSome = true →
      0 < (s.calls (s.items i).deadlineCallback).ttl
  given : ∀ {i}, i < s.nextItem → 0 < (s.calls (s.items i).deadlineCallback).ttl →
    (s.items i).deadline.isSome = true

omit [DecidableEq K] in
theorem creators_origins {s t : State K V} (h : Creators s) (kept : Origins s t) : Creators t := by
  constructor
  · intro c lt without
    rw [kept.nextCall] at lt
    rw [(kept.call c).1] at without
    rw [(kept.call c).2.1, (kept.call c).2.2]
    exact h.configured lt without
  · intro i lt
    rw [kept.nextItem] at lt
    rw [(kept.item i).1, kept.nextCall]
    exact h.made lt
  · intro i lt
    rw [kept.nextItem] at lt
    rw [(kept.item i).1, (kept.call _).1, (kept.call _).2.1]
    exact h.timely lt
  · intro i lt positive
    rw [kept.nextItem] at lt
    rw [(kept.item i).1, (kept.call _).2.1] at positive
    exact (kept.item i).2 (h.given lt positive)

theorem creators_insertItem {s : State K V} (h : Creators s) {c : Nat} (lt : c < s.nextCall)
    (timely : (s.calls c).context.deadline.isSome = true → 0 < (s.calls c).ttl) :
    Creators (s.insertItem c) := by
  have old : ∀ {i}, i < s.nextItem + 1 → i ≠ s.nextItem → i < s.nextItem := by omega
  constructor
  · exact h.configured
  · intro i ilt
    by_cases new : i = s.nextItem
    · subst i
      simpa [State.insertItem, State.newItem] using lt
    · simpa [State.insertItem, update_of_ne new] using h.made (old ilt new)
  · intro i ilt
    by_cases new : i = s.nextItem
    · subst i
      simpa [State.insertItem, State.newItem] using timely
    · simpa [State.insertItem, update_of_ne new] using h.timely (old ilt new)
  · intro i ilt
    by_cases new : i = s.nextItem
    · subst i
      simp only [State.insertItem, update_self, State.newItem]
      exact deadlineAt_isSome
    · simpa [State.insertItem, update_of_ne new] using h.given (old ilt new)

theorem creators_iterate {s : State K V} (h : Creators s) {c : Nat} (lt : c < s.nextCall)
    (finds : LatePassFinds s c) : Creators (s.iterate c) := by
  unfold State.iterate
  split
  · exact creators_origins h (origins_joinItem s c _)
  · rename_i none_live
    split
    · exact creators_origins h (origins_leave s c _)
    · have timely : (s.calls c).context.deadline.isSome = true → 0 < (s.calls c).ttl := by
        intro given
        by_contra late
        have found := finds given late
        rw [none_live] at found
        cases found
      have inserted := creators_insertItem h lt timely
      refine creators_origins ?_ (origins_joinItem (s.createItem c) c s.nextItem)
      unfold State.createItem
      split
      · exact creators_origins inserted (origins_armsOnly (armDeadline_armsOnly (s.insertItem c) _
          (Nat.lt_succ_self _) (by simp [State.insertItem, State.newItem])))
      · exact inserted

omit [DecidableEq K] in
theorem creators_enterCall {s : State K V} (h : Creators s) (context : Context) (key : K)
    (slot : Nat) (value : V) (phase : Phase) :
    Creators (s.enterCall context key slot value phase) := by
  have creator : ∀ {i}, i < s.nextItem → (s.items i).deadlineCallback ≠ s.nextCall :=
    fun ilt => Nat.ne_of_lt (h.made ilt)
  constructor
  · intro c clt without
    by_cases new : c = s.nextCall
    · subst c
      simp only [State.enterCall, update_self] at without ⊢
      simp [State.effectiveTTL, Context.remainingMs, without]
    · have old : c < s.nextCall := by
        have bound : c < s.nextCall + 1 := clt
        omega
      simp only [State.enterCall, update_of_ne new] at without ⊢
      exact h.configured old without
  · intro i ilt
    exact Nat.lt_succ_of_lt (h.made ilt)
  · intro i ilt
    simpa [State.enterCall, update_of_ne (creator ilt)] using h.timely ilt
  · intro i ilt
    simpa [State.enterCall, update_of_ne (creator ilt)] using h.given ilt

theorem remainingMs_pos {context : Context} {contextNow : Int} {r : Reading}
    (remaining : context.remainingMs contextNow = some r) (some_left : r ≠ 0) (number : r ≠ .nan) : 0 < r := by
  unfold Context.remainingMs at remaining
  obtain ⟨d, _, eq⟩ := Option.map_eq_some_iff.mp remaining
  cases d with
  | nan => exact absurd eq.symm number
  | num d =>
    subst eq
    have nonneg : (0 : Ms) ≤ max 0 (d.since contextNow) := le_max_left _ _
    have above : (0 : Ms) ≠ max 0 (d.since contextNow) := fun zero => some_left (congrArg OrNaN.num zero.symm)
    exact OrNaN.num_lt.mpr (lt_of_le_of_ne nonneg above)

theorem creators_joinValue {s : State K V} (h : Creators s) {context : Context} {key : K}
    {index : Number} {value : V}
    (join : (slotIndex index).isSome = true →
      context.remainingMs s.contextNow = some 0 ∨ context.remainingMs s.contextNow = some .nan →
        (s.findLive key).isSome = true) : Creators (s.joinValue context key index value) := by
  rcases joinValue_cases s context key index value with eq | ⟨slot, valid, eq | ⟨active, eq⟩⟩ <;> rw [eq]
  · exact creators_enterCall h context key 0 value _
  · exact creators_enterCall h context key slot value _
  · have entered := creators_enterCall h context key slot value .entering
    have counted := creators_origins entered
      (origins_frame (t := (s.enterCall context key slot value .entering).setActive active) rfl)
    refine creators_iterate counted (Nat.lt_succ_self _) ?_
    -- the pass sees the maps of `s`, and the call has just read what remains
    intro given late
    simp only [State.setActive, State.enterCall, update_self, State.effectiveTTL] at given late ⊢
    have left : context.remainingMs s.contextNow = some 0 ∨ context.remainingMs s.contextNow = some .nan := by
      cases remaining : context.remainingMs s.contextNow with
      | none => simp [Context.remainingMs, Option.isSome_iff_ne_none.mp given] at remaining
      | some r =>
        rw [remaining, Option.getD_some] at late
        by_contra some_left
        rw [not_or] at some_left
        exact late (remainingMs_pos remaining (fun zero => some_left.1 (congrArg some zero))
          (fun nan => some_left.2 (congrArg some nan)))
    exact join (by simp [valid]) left

theorem creators_step {s t : State K V} {a : Action K V} (wired : Wired s) (h : Creators s)
    (join : LateCallsJoin s a) (next : step s a = some t) : Creators t := by
  cases a with
  | joinValue context key index value =>
    cases next
    exact creators_joinValue h join
  | enter c =>
    obtain ⟨lt, _, _, rfl⟩ := enter_cases next
    have counted := creators_origins h
      (origins_frame (t := s.setActive (s.activeTTLJoins + 1)) rfl)
    exact creators_iterate counted lt join
  | startOperation o => exact creators_origins h (origins_startOperation wired next)
  | callbackReturns o outcome =>
    obtain ⟨_, _, _, ⟨c, _, rfl⟩ | ⟨b, _, rfl⟩⟩ := callbackReturns_cases next <;>
      exact creators_origins h (origins_frame rfl)
  | continueOperation o => exact creators_origins h (origins_continueOperation wired next)
  | resume c =>
    obtain ⟨lt, ⟨_, rfl⟩ | ⟨phase, rfl⟩ | ⟨_, _, rfl⟩⟩ := resume_cases next
    · exact creators_origins h (origins_leave s c _)
    · exact creators_iterate h lt (join phase)
    · exact creators_origins h (origins_leave s c _)
  | fire b =>
    obtain ⟨lt, _, rfl⟩ := fire_cases next
    exact creators_origins h (origins_armsOnly
      (armsOnly_trans (disarm_armsOnly s b) (expire_armsOnly (s.disarm b) lt)))
  | _ =>
    obtain ⟨objects, _⟩ := outside_step next trivial
    exact creators_origins h (origins_frame (objects_roster objects))

variable [Inhabited K] [Inhabited V]

theorem expiry_reachable {ok : State K V → Action K V → Prop} {s : State K V}
    (reach : ReachableWith ok s) : Closing s ∧ Guarded s nobody := by
  obtain ⟨s₀, start, run⟩ := reach
  have closing : Closing s₀ := by
    obtain ⟨ttlMs, renewTTL, metricsEnabled, now, contextNow, aborted, rfl⟩ := start
    intro o a lt
    simp [initial, Chain.empty] at lt
  have guarded : Guarded s₀ nobody := by
    obtain ⟨ttlMs, renewTTL, metricsEnabled, now, contextNow, aborted, rfl⟩ := start
    constructor <;> simp [initial]
  have all := Transitions.steps_invariant
    (fun s => Wired s ∧ Groups s ∧ Closing s ∧ Guarded s nobody) ?_ run
    ⟨wired_initial start, groups_initial start, closing, guarded⟩
  · exact all.2.2
  · rintro s a t ⟨wired, groups, closing, guarded⟩ _ next
    exact ⟨wired_step wired next, groups_step wired groups next, closing_step wired closing next,
      guarded_step wired groups closing guarded next⟩

theorem creators_reachable {s : State K V} (reach : ReachableWith LateCallsJoin s) : Creators s := by
  obtain ⟨s₀, start, run⟩ := reach
  have fresh : Creators s₀ := by
    obtain ⟨ttlMs, renewTTL, metricsEnabled, now, contextNow, aborted, rfl⟩ := start
    constructor <;> simp [initial]
  have all := Transitions.steps_invariant (fun s => Wired s ∧ Creators s) ?_ run
    ⟨wired_initial start, fresh⟩
  · exact all.2
  · rintro s a t ⟨wired, creators⟩ join next
    exact ⟨wired_step wired next, creators_step wired creators join next⟩

/- The expiry of every group that is to expire. The condition is on the calls:
   an effective TTL of zero, which also means that none is configured, comes out
   of a context whose deadline is over, and one of NaN, which is not above zero
   either, out of a context whose deadline is NaN. -/
theorem stored_group_expires {s : State K V} (reach : ReachableWith LateCallsJoin s) {k : K}
    {i : Nat} (stored : s.current.get k = some i ∨ s.previous.get k = some i)
    (unprocessed : (s.items i).processed = false)
    (limited : (s.calls (s.items i).deadlineCallback).context.deadline.isSome = true ∨
      0 < (s.calls (s.items i).deadlineCallback).configuredTTL) :
    (s.items i).deadline.isSome = true ∧ (ArmedFor s i ∨ ExpiryPending s i) := by
  obtain ⟨wired, _⟩ := groups_reachable reach
  obtain ⟨_, guarded⟩ := expiry_reachable reach
  have creators := creators_reachable reach
  have lt : i < s.nextItem := by
    rcases stored with get | get
    · exact (wired.stored.current_item get).1
    · exact (wired.stored.previous_item get).1
  have positive : 0 < (s.calls (s.items i).deadlineCallback).ttl := by
    cases given : (s.calls (s.items i).deadlineCallback).context.deadline with
    | some d => exact creators.timely lt (by simp [given])
    | none =>
      rw [creators.configured (creators.made lt) given]
      exact reading_pos.mpr (limited.resolve_left (by simp [given]))
  have deadline := creators.given lt positive
  exact ⟨deadline, guarded.watched lt (fun f => f) deadline unprocessed⟩

theorem stored_group_expires_solo :
    ∃ s : State Nat Nat, step (initial 1000 false true 0 0 fun _ => false)
        (.joinValue ⟨0, none⟩ 3 (.finite 1) 7) = some s ∧ s.current.get 3 = some 0 ∧
      (s.items 0).deadline.isSome = true ∧ (ArmedFor s 0 ∨ ExpiryPending s 0) := by
  obtain ⟨s, next, stored, unprocessed, limited⟩ : ∃ s : State Nat Nat,
      step (initial 1000 false true 0 0 fun _ => false) (.joinValue ⟨0, none⟩ 3 (.finite 1) 7) =
        some s ∧ s.current.get 3 = some 0 ∧ (s.items 0).processed = false ∧
        0 < (s.calls (s.items 0).deadlineCallback).configuredTTL :=
    ⟨_, rfl, rfl, rfl, by decide⟩
  have timely : LateCallsJoin (initial 1000 false true 0 0 fun _ => false)
      (.joinValue ⟨0, none⟩ 3 (.finite 1) 7 : Action Nat Nat) := by
    intro _ none_left
    rcases none_left with zero | nan
    · cases zero
    · cases nan
  have reach : ReachableWith LateCallsJoin s :=
    ⟨_, ⟨1000, false, true, 0, 0, fun _ => false, rfl⟩, Transitions.steps_single timely next⟩
  exact ⟨s, next, stored, stored_group_expires reach (Or.inl stored) unprocessed (Or.inr limited)⟩

/-- A call whose context is over, alone, with a callback that keeps the group. -/
def lateJoin : List (Action Nat Nat) :=
  [.joinValue ⟨0, some 0⟩ 3 (.finite 1) 7, .startOperation 0, .callbackReturns 0 (.returned false),
    .continueOperation 0, .resume 0]

/- The group of a late call stays in the map, with its value, and nothing is left
   that could expire it, although a TTL is configured. -/
theorem late_group_never_expires :
    ∃ s : State Nat Nat, Reachable s ∧ s.current.get 3 = some 0 ∧ (s.items 0).processed = false ∧
      (s.calls (s.items 0).deadlineCallback).context.deadline = some 0 ∧
      0 < (s.calls (s.items 0).deadlineCallback).configuredTTL ∧
      slot (s.items 0).values 1 = [7] ∧ (s.items 0).deadline = none ∧
      ¬ ArmedFor s 0 ∧ ¬ ExpiryPending s 0 := by
  obtain ⟨s, run, stored, unprocessed, context, configured, values, deadline, arms, operations, body⟩ :
      ∃ s : State Nat Nat, Transitions.exec step (initial 1000 false true 0 0 fun _ => false)
        lateJoin = some s ∧ s.current.get 3 = some 0 ∧ (s.items 0).processed = false ∧
        (s.calls (s.items 0).deadlineCallback).context.deadline = some 0 ∧
        0 < (s.calls (s.items 0).deadlineCallback).configuredTTL ∧
        slot (s.items 0).values 1 = [7] ∧ (s.items 0).deadline = none ∧ s.nextArm = 0 ∧
        s.chain.next = 1 ∧ (s.operations 0).body = .join 0 :=
    ⟨_, rfl, rfl, rfl, rfl, by decide, rfl, rfl, rfl, rfl, rfl⟩
  refine ⟨s, reachable_exec run, stored, unprocessed, context, configured, values, deadline, ?_, ?_⟩
  · rintro ⟨a, lt, _⟩
    omega
  · rintro ⟨o, a, lt, _, expires, _⟩
    have only : o = 0 := by omega
    rw [only, body] at expires
    cases expires

end Promise

end JoinStorage
