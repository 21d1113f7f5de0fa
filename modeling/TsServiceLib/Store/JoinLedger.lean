import TsServiceLib.Store.JoinWiring

/-!
The history of a join storage against its groups. The slots of a group hold
the values appended to them and nothing else, each call has appended as often
as its phase says, and after the terminal of a group nothing is appended to it
and none of its callbacks starts.
-/
namespace JoinStorage
open OrderedMaps TailChain Numbers Function

section History
variable {V : Type}

def Event.item : Event V → Nat
  | .appended _ item _ _ _ _ => item
  | .joinStarted _ item => item
  | .joinReturned _ item _ => item
  | .deadlineStarted _ item => item
  | .deadlineReturned _ item _ => item

def Event.appends (call : Nat) : Event V → Bool
  | .appended c _ _ _ _ _ => decide (c = call)
  | _ => false

def Event.Starts (operation item : Nat) (e : Event V) : Prop :=
  e = .joinStarted operation item ∨ e = .deadlineStarted operation item

/-- The callback that the operation started has settled. -/
def Event.Returns (operation : Nat) (e : Event V) : Prop :=
  ∃ item outcome, e = .joinReturned operation item outcome ∨ e = .deadlineReturned operation item outcome

/-- The terminals of a group: a join callback gave true, or its deadline callback began. -/
def Event.Terminal (item : Nat) (e : Event V) : Prop :=
  ∃ operation, e = .joinReturned operation item (.returned true) ∨ e = .deadlineStarted operation item

/-- The event uses the group: it appends to it or starts one of its callbacks. -/
def Event.Uses (item : Nat) : Event V → Prop
  | .appended _ i _ _ _ _ => i = item
  | .joinStarted _ i => i = item
  | .deadlineStarted _ i => i = item
  | _ => False

def appendCount (call : Nat) (history : List (Event V)) : Nat := history.countP (Event.appends call)

def slotEntry (item index : Nat) : Event V → Option V
  | .appended _ i j value _ _ => if i = item ∧ j = index then some value else none
  | _ => none

/-- What the history put into one slot of a group, oldest first. -/
def slotLog (history : List (Event V)) (item index : Nat) : List V :=
  (history.filterMap (slotEntry item index)).reverse

/-- No event uses a group after its terminal; histories are newest first. -/
def Lawful : List (Event V) → Prop
  | [] => True
  | e :: earlier => (∀ item, e.Uses item → ∀ f ∈ earlier, ¬ f.Terminal item) ∧ Lawful earlier

theorem lawful_split {later earlier : List (Event V)} {e : Event V}
    (h : Lawful (later ++ e :: earlier)) :
    (∀ item, e.Uses item → ∀ f ∈ earlier, ¬ f.Terminal item) ∧
      ∀ item, e.Terminal item → ∀ f ∈ later, ¬ f.Uses item := by
  induction later with
  | nil => exact ⟨h.1, by simp⟩
  | cons f later ih =>
    obtain ⟨before, after⟩ := ih h.2
    refine ⟨before, ?_⟩
    intro item terminal g mem uses
    rcases List.mem_cons.mp mem with rfl | inside
    · exact h.1 item uses e (by simp) terminal
    · exact after item terminal g inside uses

theorem slotLog_cons_quiet {history : List (Event V)} {e : Event V} {item index : Nat}
    (quiet : slotEntry item index e = none) :
    slotLog (e :: history) item index = slotLog history item index := by
  simp [slotLog, quiet]

theorem slotLog_cons_append (history : List (Event V)) (call item index : Nat) (value : V)
    (deadline : Option Ms) (now : Int) (i j : Nat) :
    slotLog (.appended call item index value deadline now :: history) i j =
      if item = i ∧ index = j then slotLog history i j ++ [value] else slotLog history i j := by
  by_cases here : item = i ∧ index = j
  · simp [slotLog, slotEntry, here]
  · simp [slotLog, slotEntry, here]

theorem slotLog_unused {history : List (Event V)} {item : Nat}
    (unused : ∀ e ∈ history, e.item ≠ item) (index : Nat) : slotLog history item index = [] := by
  simp only [slotLog, List.reverse_eq_nil_iff, List.filterMap_eq_nil_iff]
  intro e mem
  have other := unused e mem
  cases e <;> simp_all [slotEntry, Event.item]

end History

section Slots
variable {V : Type}

/-- The slot of a group, empty where its array has not grown yet. -/
def slot (values : List (List V)) (index : Nat) : List V := (values[index]?).getD []

theorem slot_replicate (n index : Nat) : slot (List.replicate n ([] : List V)) index = [] := by
  simp only [slot, List.getElem?_replicate]
  split <;> rfl

theorem slot_padValues (values : List (List V)) (index j : Nat) :
    slot (State.padValues values index) j = slot values j := by
  simp only [slot, State.padValues]
  by_cases inside : j < values.length
  · rw [List.getElem?_append_left inside]
  · rw [List.getElem?_append_right (by omega), List.getElem?_replicate,
      List.getElem?_eq_none (by omega : values.length ≤ j)]
    split <;> rfl

theorem slot_pushValue (values : List (List V)) {index : Nat} (value : V)
    (small : index < maxArrayLength) (j : Nat) :
    slot (State.pushValue values index value) j =
      if index = j then slot values j ++ [value] else slot values j := by
  have grown : index < (State.padValues values index).length := by
    simp only [State.padValues, List.length_append, List.length_replicate]
    omega
  have padded := slot_padValues values index j
  simp only [slot, State.pushValue, List.getElem?_modify] at padded ⊢
  by_cases here : index = j
  · subst j
    rw [List.getElem?_eq_getElem grown] at padded ⊢
    simp only [↓reduceIte, Option.map_eq_map, Option.map_some, Option.getD_some] at padded ⊢
    rw [padded]
  · simpa [here] using padded

end Slots

section Groups
variable {K V : Type}

/- Steps the groups do not notice: no event, no change of a slot or of
   `processed`, and every new operation is still waiting. -/
structure Quiet (s t : State K V) : Prop where
  history : t.history = s.history
  keeps : KeepsOperations s t
  waiting : ∀ {o}, s.chain.next ≤ o → o < t.chain.next →
    t.chain.status o = .waiting ∧ (t.operations o).stage = .idle
  nextItem_le : s.nextItem ≤ t.nextItem
  item : ∀ {i}, i < s.nextItem → (t.items i).key = (s.items i).key ∧
    (t.items i).values = (s.items i).values ∧ (t.items i).processed = (s.items i).processed
  new_item : ∀ {i}, s.nextItem ≤ i → i < t.nextItem → ∀ j, slot (t.items i).values j = []
  nextCall_le : s.nextCall ≤ t.nextCall
  call : ∀ {c}, c < s.nextCall → (t.calls c).key = (s.calls c).key ∧
    (t.calls c).index = (s.calls c).index ∧ (t.calls c).value = (s.calls c).value

theorem quiet_same {s t : State K V} (history : t.history = s.history)
    (keeps : KeepsOperations s t)
    (waiting : ∀ {o}, s.chain.next ≤ o → o < t.chain.next →
      t.chain.status o = .waiting ∧ (t.operations o).stage = .idle)
    (nextItem : t.nextItem = s.nextItem)
    (item : ∀ i, (t.items i).key = (s.items i).key ∧
      (t.items i).values = (s.items i).values ∧ (t.items i).processed = (s.items i).processed)
    (nextCall : t.nextCall = s.nextCall)
    (call : ∀ c, (t.calls c).key = (s.calls c).key ∧
      (t.calls c).index = (s.calls c).index ∧ (t.calls c).value = (s.calls c).value) :
    Quiet s t where
  history := history
  keeps := keeps
  waiting := waiting
  nextItem_le := by rw [nextItem]
  item := fun _ => item _
  new_item := by
    intro i lo hi
    rw [nextItem] at hi
    omega
  nextCall_le := by rw [nextCall]
  call := fun _ => call _

theorem quiet_refl (s : State K V) : Quiet s s :=
  quiet_same rfl (keepsOperations_same rfl rfl) (fun lo hi => absurd hi (Nat.not_lt.mpr lo)) rfl
    (fun _ => ⟨rfl, rfl, rfl⟩) rfl (fun _ => ⟨rfl, rfl, rfl⟩)

theorem quiet_trans {s t u : State K V} (st : Quiet s t) (tu : Quiet t u) : Quiet s u where
  history := tu.history.trans st.history
  keeps := keepsOperations_trans st.keeps tu.keeps
  waiting := by
    intro o lo hi
    by_cases old : o < t.chain.next
    · rw [tu.keeps.status old, tu.keeps.operation old]
      exact st.waiting lo old
    · exact tu.waiting (by omega) hi
  nextItem_le := Nat.le_trans st.nextItem_le tu.nextItem_le
  item := by
    intro i lt
    have first := st.item lt
    have second := tu.item (Nat.lt_of_lt_of_le lt st.nextItem_le)
    exact ⟨second.1.trans first.1, second.2.1.trans first.2.1, second.2.2.trans first.2.2⟩
  new_item := by
    intro i lo hi j
    by_cases old : i < t.nextItem
    · rw [(tu.item old).2.1]
      exact st.new_item lo old j
    · exact tu.new_item (by omega) hi j
  nextCall_le := Nat.le_trans st.nextCall_le tu.nextCall_le
  call := by
    intro c lt
    have first := st.call lt
    have second := tu.call (Nat.lt_of_lt_of_le lt st.nextCall_le)
    exact ⟨second.1.trans first.1, second.2.1.trans first.2.1, second.2.2.trans first.2.2⟩

theorem quiet_armsOnly {s t : State K V} (only : ArmsOnly s t) : Quiet s t := by
  refine quiet_same only.history (keepsOperations_armsOnly only) ?_ only.nextItem ?_ only.nextCall ?_
  · intro o lo hi
    obtain ⟨waiting, a, op, _⟩ := only.fresh lo hi
    exact ⟨waiting, by rw [op]⟩
  · intro i
    obtain ⟨cancel, eq⟩ := only.item i
    simp [eq]
  · intro c
    simp [only.calls]

/-- Maps, clocks, configuration and counters are no business of the groups. -/
theorem quiet_frame {s t : State K V} (objects : t.objects = s.objects) (history : t.history = s.history) :
    Quiet s t := by
  obtain ⟨operations, chain, items, nextItem, -, -, calls, nextCall⟩ := objects_same objects
  refine quiet_same history (keepsOperations_same operations chain) ?_ nextItem ?_ nextCall ?_
  · intro o lo hi
    rw [chain] at hi
    omega
  · intro i
    simp [items]
  · intro c
    simp [calls]

theorem quiet_active (s : State K V) (active : Int) : Quiet s (s.setActive active) :=
  quiet_frame rfl rfl

theorem quiet_setPhase (s : State K V) (c : Nat) (phase : Phase) : Quiet s (s.setPhase c phase) := by
  refine quiet_same rfl (keepsOperations_same rfl rfl) ?_ rfl (fun _ => ⟨rfl, rfl, rfl⟩) rfl ?_
  · intro o lo hi
    exact absurd hi (Nat.not_lt.mpr lo)
  · intro d
    by_cases same : d = c
    · subst d
      simp [State.setPhase]
    · simp [State.setPhase, update_of_ne same]

theorem quiet_leave (s : State K V) (c : Nat) (phase : Phase) : Quiet s (s.leave c phase) := by
  have settled := quiet_setPhase s c phase
  unfold State.leave
  split
  · exact quiet_trans settled (quiet_frame rfl rfl)
  · exact settled

theorem quiet_joinItem (s : State K V) (c i : Nat) : Quiet s (s.joinItem c i) := by
  refine quiet_same rfl ?_ ?_ rfl (fun _ => ⟨rfl, rfl, rfl⟩) rfl ?_
  · refine ⟨Nat.le_succ _, ?_, ?_, ?_⟩ <;>
    · intro o lt
      exact update_of_ne (Nat.ne_of_lt lt) _ _
  · intro o lo hi
    have new : o = s.chain.next := Nat.le_antisymm (Nat.le_of_lt_succ hi) lo
    subst o
    simp [State.joinItem, State.enqueue, Chain.attach]
  · intro d
    by_cases same : d = c
    · subst d
      simp [State.joinItem]
    · simp [State.joinItem, update_of_ne same]

theorem quiet_settle {s t : State K V} (quiet : Quiet s t) {o : Nat} (lt : o < s.chain.next) :
    Quiet (s.settle o) (t.settle o) :=
  { quiet with
    keeps := by
      refine ⟨quiet.keeps.next_le, quiet.keeps.lane, ?_, quiet.keeps.operation⟩
      intro p plt
      by_cases same : p = o
      · subst p
        simp [State.settle, Chain.settle]
      · simpa [State.settle, Chain.settle, update_of_ne same] using quiet.keeps.status plt
    waiting := by
      intro p lo hi
      have same : p ≠ o := Nat.ne_of_gt (Nat.lt_of_lt_of_le lt lo)
      simpa [State.settle, Chain.settle, update_of_ne same] using quiet.waiting lo hi }

theorem quiet_enterCall (s : State K V) (context : Context) (key : K) (slot : Nat)
    (value : V) (phase : Phase) : Quiet s (s.enterCall context key slot value phase) :=
  { quiet_refl s with
    nextCall_le := Nat.le_succ _
    call := by
      intro c lt
      simp [State.enterCall, update_of_ne (Nat.ne_of_lt lt)]
    keeps := keepsOperations_same rfl rfl
    waiting := fun lo hi => absurd hi (Nat.not_lt.mpr lo)
    new_item := fun lo hi => absurd hi (Nat.not_lt.mpr lo) }

structure Groups (s : State K V) : Prop where
  known : ∀ e ∈ s.history, e.item < s.nextItem
  appended : ∀ {c i j v d} {n : Int}, .appended c i j v d n ∈ s.history →
    c < s.nextCall ∧ j = (s.calls c).index ∧ v = (s.calls c).value ∧
      (s.items i).key = (s.calls c).key ∧ ∀ deadline ∈ d, (n : Ms) < deadline
  contents : ∀ {i}, i < s.nextItem → ∀ j, slot (s.items i).values j = slotLog s.history i j
  idle : ∀ {o}, o < s.chain.next → s.chain.status o = .waiting → (s.operations o).stage = .idle
  joining : ∀ {o c}, o < s.chain.next → s.chain.status o = .running →
    (s.operations o).body = .join c → (s.items (s.chain.lane o)).processed = false
  marked : ∀ {i}, ∀ e ∈ s.history, e.Terminal i → (s.items i).processed = true ∨
    ∃ o c, o < s.chain.next ∧ s.chain.lane o = i ∧ s.chain.status o = .running ∧
      (s.operations o).body = .join c ∧ (s.operations o).stage = .returned (.returned true)
  callbacks : ∀ {o i}, ∀ e ∈ s.history, e.Starts o i → o < s.chain.next ∧ s.chain.lane o = i ∧
    ((∃ f ∈ s.history, f.Returns o) ∨
      (s.chain.status o = .running ∧ (s.operations o).stage = .inCallback))
  lawful : Lawful s.history

theorem terminal_item {e : Event V} {i : Nat} (h : e.Terminal i) : e.item = i := by
  obtain ⟨o, rfl | rfl⟩ := h <;> rfl

/- An operation settles outside its callback. Nothing runs on its lane any more,
   so every terminal of the group has to show in `processed`. -/
theorem groups_settle {s : State K V} (h : Groups s) {o : Nat}
    (past : s.chain.status o = .running → (s.operations o).stage ≠ .inCallback)
    (marked : ∀ e ∈ s.history, e.Terminal (s.chain.lane o) →
      (s.items (s.chain.lane o)).processed = true) : Groups (s.settle o) :=
  { h with
    known := h.known
    appended := h.appended
    contents := h.contents
    lawful := h.lawful
    idle := by
      intro p plt waiting
      by_cases same : p = o
      · subst p
        simp [State.settle, Chain.settle] at waiting
      · exact h.idle plt (by simpa [State.settle, Chain.settle, update_of_ne same] using waiting)
    joining := by
      intro p c plt running body
      by_cases same : p = o
      · subst p
        simp [State.settle, Chain.settle] at running
      · exact h.joining plt (by simpa [State.settle, Chain.settle, update_of_ne same] using running) body
    marked := by
      intro i e mem terminal
      rcases h.marked e mem terminal with processed | ⟨p, c, plt, lane, running, body, stage⟩
      · exact Or.inl processed
      · by_cases same : p = o
        · subst p
          exact Or.inl (lane ▸ marked e mem (lane ▸ terminal))
        · refine Or.inr ⟨p, c, plt, lane, ?_, body, stage⟩
          simpa [State.settle, Chain.settle, update_of_ne same] using running
    callbacks := by
      intro p i e mem starts
      obtain ⟨plt, lane, returned | ⟨running, stage⟩⟩ := h.callbacks e mem starts
      · exact ⟨plt, lane, Or.inl returned⟩
      · have same : p ≠ o := by
          rintro rfl
          exact past running stage
        refine ⟨plt, lane, Or.inr ⟨?_, stage⟩⟩
        simpa [State.settle, Chain.settle, update_of_ne same] using running }

theorem groups_padValues {s : State K V} (h : Groups s) (i index : Nat) :
    Groups (s.setValues i (State.padValues (s.items i).values index)) := by
  have keys := update_key (f := s.items) (i := i)
    ({ s.items i with values := State.padValues (s.items i).values index }) rfl
  have marks : ∀ j, ((s.setValues i (State.padValues (s.items i).values index)).items j).processed =
      (s.items j).processed := by
    intro j
    by_cases same : j = i
    · subst j
      simp [State.setValues, State.setItem]
    · simp [State.setValues, State.setItem, update_of_ne same]
  refine ⟨h.known, ?_, ?_, h.idle, ?_, ?_, h.callbacks, h.lawful⟩
  · intro c k j v d n mem
    obtain ⟨clt, index, value, key, fresh⟩ := h.appended mem
    exact ⟨clt, index, value, (keys k).trans key, fresh⟩
  · intro k klt j
    have old := h.contents klt j
    by_cases same : k = i
    · subst k
      simpa [State.setValues, State.setItem, slot_padValues] using old
    · simpa [State.setValues, State.setItem, update_of_ne same] using old
  · intro o c lt running body
    rw [marks]
    exact h.joining lt running body
  · intro k e mem terminal
    rw [marks]
    exact h.marked e mem terminal

theorem groups_quiet {s t : State K V} (h : Groups s)
    (lanes : ∀ {o}, o < s.chain.next → s.chain.lane o < s.nextItem) (quiet : Quiet s t) :
    Groups t where
  known := by
    intro e mem
    rw [quiet.history] at mem
    exact Nat.lt_of_lt_of_le (h.known e mem) quiet.nextItem_le
  appended := by
    intro c i j v d n mem
    rw [quiet.history] at mem
    obtain ⟨clt, index, value, key, fresh⟩ := h.appended mem
    have ilt := h.known _ mem
    have call := quiet.call clt
    refine ⟨Nat.lt_of_lt_of_le clt quiet.nextCall_le, ?_, ?_, ?_, fresh⟩
    · rw [index, call.2.1]
    · rw [value, call.2.2]
    · exact (quiet.item ilt).1.trans (key.trans call.1.symm)
  contents := by
    intro i ilt j
    rw [quiet.history]
    by_cases old : i < s.nextItem
    · rw [(quiet.item old).2.1]
      exact h.contents old j
    · have unused : ∀ e ∈ s.history, e.item ≠ i := by
        intro e mem same
        exact old (same ▸ h.known e mem)
      rw [quiet.new_item (by omega) ilt, slotLog_unused unused]
  idle := by
    intro o lt waiting
    by_cases old : o < s.chain.next
    · rw [quiet.keeps.operation old]
      rw [quiet.keeps.status old] at waiting
      exact h.idle old waiting
    · exact (quiet.waiting (by omega) lt).2
  joining := by
    intro o c lt running body
    by_cases old : o < s.chain.next
    · rw [quiet.keeps.status old] at running
      rw [quiet.keeps.operation old] at body
      rw [quiet.keeps.lane old, (quiet.item (lanes old)).2.2]
      exact h.joining old running body
    · rw [(quiet.waiting (by omega) lt).1] at running
      cases running
  marked := by
    intro i e mem terminal
    rw [quiet.history] at mem
    have ilt : i < s.nextItem := terminal_item terminal ▸ h.known e mem
    rcases h.marked e mem terminal with processed | ⟨o, c, olt, lane, running, body, stage⟩
    · exact Or.inl ((quiet.item ilt).2.2.trans processed)
    · refine Or.inr ⟨o, c, Nat.lt_of_lt_of_le olt quiet.keeps.next_le, ?_⟩
      rw [quiet.keeps.lane olt, quiet.keeps.status olt, quiet.keeps.operation olt]
      exact ⟨lane, running, body, stage⟩
  callbacks := by
    intro o i e mem starts
    rw [quiet.history] at mem
    obtain ⟨olt, lane, progress⟩ := h.callbacks e mem starts
    rw [quiet.history, quiet.keeps.lane olt, quiet.keeps.status olt, quiet.keeps.operation olt]
    exact ⟨Nat.lt_of_lt_of_le olt quiet.keeps.next_le, lane, progress⟩
  lawful := by
    rw [quiet.history]
    exact h.lawful

/- A callback settles: a join callback that gave true is the terminal of its
   group from now on, although `processed` is written only by the continuation. -/
theorem groups_returned {s : State K V} (h : Groups s) {o : Nat} {outcome : CallbackOutcome}
    {e : Event V} (lt : o < s.chain.next) (running : s.chain.status o = .running)
    (inside : (s.operations o).stage = .inCallback) (known : e.item < s.nextItem) (returns : e.Returns o) (unused : ∀ i, ¬ e.Uses i)
    (terminal : ∀ i, e.Terminal i → i = s.chain.lane o ∧ outcome = .returned true ∧
      ∃ c, (s.operations o).body = .join c) :
    Groups ((s.setStage o (.returned outcome)).record e) := by
  have operation : ∀ p, p ≠ o →
      (((s.setStage o (.returned outcome)).record e).operations p) = s.operations p :=
    fun p other => update_of_ne other _ _
  have bodies : ∀ p, ((s.setStage o (.returned outcome)).record e |>.operations p).body =
      (s.operations p).body := update_body _
  constructor
  · intro f mem
    rcases List.mem_cons.mp mem with rfl | old
    · exact known
    · exact h.known f old
  · intro c i j v d n mem
    rcases List.mem_cons.mp mem with rfl | old
    · obtain ⟨_, _, bad | bad⟩ := returns <;> cases bad
    · exact h.appended old
  · intro i ilt j
    have head : slotEntry i j e = none := by
      obtain ⟨_, _, rfl | rfl⟩ := returns <;> rfl
    exact (h.contents ilt j).trans (slotLog_cons_quiet head).symm
  · intro p plt waiting
    have still : s.chain.status p = .waiting := waiting
    have same : p ≠ o := (Chain.running_apart running still).symm
    rw [operation p same]
    exact h.idle plt waiting
  · intro p c plt prunning pbody
    rw [bodies] at pbody
    exact h.joining plt prunning pbody
  · intro i f mem fterminal
    rcases List.mem_cons.mp mem with rfl | old
    · obtain ⟨rfl, rfl, c, body⟩ := terminal i fterminal
      refine Or.inr ⟨o, c, lt, rfl, running, ?_, ?_⟩
      · rw [bodies]
        exact body
      · simp [State.record, State.setStage]
    · rcases h.marked f old fterminal with processed | ⟨p, d, plt, lane, prunning, pbody, stage⟩
      · exact Or.inl processed
      · by_cases same : p = o
        · subst p
          rw [inside] at stage
          cases stage
        · refine Or.inr ⟨p, d, plt, lane, prunning, ?_⟩
          rw [operation p same]
          exact ⟨pbody, stage⟩
  · intro p i f mem starts
    rcases List.mem_cons.mp mem with rfl | old
    · obtain ⟨_, _, bad | bad⟩ := returns <;> rcases starts with eq | eq <;> rw [bad] at eq <;> cases eq
    · obtain ⟨plt, lane, progress⟩ := h.callbacks f old starts
      refine ⟨plt, lane, ?_⟩
      by_cases same : p = o
      · subst p
        exact Or.inl ⟨e, List.mem_cons_self, returns⟩
      · rcases progress with ⟨g, gmem, greturns⟩ | ⟨prunning, stage⟩
        · exact Or.inl ⟨g, List.mem_cons_of_mem _ gmem, greturns⟩
        · rw [operation p same]
          exact Or.inr ⟨prunning, stage⟩
  · refine ⟨?_, h.lawful⟩
    intro i uses
    exact absurd uses (unused i)

theorem begin_settle (s : State K V) (o : Nat) : (s.begin o).settle o = s.settle o := by
  simp [State.begin, State.settle, Chain.start, Chain.settle]

variable [DecidableEq K]

theorem quiet_insertItem (s : State K V) (c : Nat) : Quiet s (s.insertItem c) :=
  { quiet_refl s with
    nextItem_le := Nat.le_succ _
    item := by
      intro i lt
      simp [State.insertItem, update_of_ne (Nat.ne_of_lt lt)]
    new_item := by
      intro i lo hi j
      have new : i = s.nextItem := Nat.le_antisymm (Nat.le_of_lt_succ hi) lo
      subst i
      simpa [State.insertItem, State.newItem] using slot_replicate _ j
    keeps := keepsOperations_same rfl rfl
    waiting := fun lo hi => absurd hi (Nat.not_lt.mpr lo) }

theorem quiet_createItem (s : State K V) (c : Nat) : Quiet s (s.createItem c) := by
  have inserted := quiet_insertItem s c
  unfold State.createItem
  split
  · refine quiet_trans inserted (quiet_armsOnly (armDeadline_armsOnly _ _ (Nat.lt_succ_self _) ?_))
    simp [State.insertItem, State.newItem]
  · exact inserted

theorem quiet_iterate (s : State K V) (c : Nat) : Quiet s (s.iterate c) := by
  unfold State.iterate
  split
  · exact quiet_joinItem s c _
  · split
    · exact quiet_leave s c _
    · exact quiet_trans (quiet_createItem s c) (quiet_joinItem _ c _)

theorem quiet_removeAt (s : State K V) (k : K) (i : Nat) (location : Location) (evict : Bool) :
    Quiet s (s.removeAt k i location evict) := by
  unfold State.removeAt
  split
  · exact quiet_frame rfl rfl
  · exact quiet_refl s

theorem quiet_republish (s : State K V) (c i : Nat) (location : Location) :
    Quiet s (s.republish c i location) := by
  refine quiet_same rfl (keepsOperations_same rfl rfl) ?_ rfl ?_ rfl (fun _ => ⟨rfl, rfl, rfl⟩)
  · intro o lo hi
    exact absurd hi (Nat.not_lt.mpr lo)
  · intro j
    by_cases same : j = i
    · subst j
      simp [State.republish]
    · simp [State.republish, update_of_ne same]

theorem quiet_concludeJoin {s : State K V} {c i : Nat} (ilt : i < s.nextItem)
    (named : (s.items i).key = (s.calls c).key) (processed : Bool) :
    Quiet s (s.concludeJoin c i processed) := by
  unfold State.concludeJoin
  split
  · exact quiet_refl s
  · split
    · exact quiet_trans (quiet_armsOnly (cancelDeadline_armsOnly s i)) (quiet_removeAt _ _ _ _ _)
    · split
      · exact quiet_trans (quiet_republish s c i _) (quiet_armsOnly (renew_armsOnly _ ilt named))
      · exact quiet_refl s

theorem quiet_concludeExpire (s : State K V) (a i : Nat) : Quiet s (s.concludeExpire a i) := by
  unfold State.concludeExpire
  split
  · exact quiet_refl s
  · exact quiet_removeAt _ _ _ _ _

theorem open_group {s : State K V} (wired : Wired s) (h : Groups s) {o : Nat}
    (ready : s.chain.ready o = true) (unprocessed : (s.items (s.chain.lane o)).processed = false) :
    ∀ e ∈ s.history, ¬ e.Terminal (s.chain.lane o) := by
  intro e mem terminal
  rcases h.marked e mem terminal with processed | ⟨p, c, plt, lane, running, _⟩
  · rw [unprocessed] at processed
    cases processed
  · exact Chain.ready_lane_idle wired.chain ready plt lane running

/- The one step that fills a slot. The check just made shows that the group has
   met no terminal, which is what the history has to say of the new events. -/
theorem groups_appendValue {s : State K V} (wired : Wired s) (h : Groups s) {o c : Nat}
    (ready : s.chain.ready o = true) (body : (s.operations o).body = .join c)
    (accepts : s.refuses c (s.chain.lane o) = false) (small : (s.calls c).index < maxArrayLength) :
    Groups (s.appendValue o c (s.chain.lane o)) := by
  obtain ⟨lt, waiting, _⟩ := (Chain.ready_iff _ _).mp ready
  have ilt := wired.lane_item lt
  obtain ⟨clt, named⟩ := wired.join_body lt body
  simp only [State.refuses, Bool.or_eq_false_iff] at accepts
  obtain ⟨⟨unprocessed, unexpired⟩, _⟩ := accepts
  have clear := open_group wired h ready unprocessed
  have keys : ∀ j, ((s.appendValue o c (s.chain.lane o)).items j).key = (s.items j).key :=
    update_key _ rfl
  have marks : ∀ j, ((s.appendValue o c (s.chain.lane o)).items j).processed =
      (s.items j).processed := by
    intro j
    by_cases same : j = s.chain.lane o
    · subst j
      simp [State.appendValue, State.setValues, State.setItem, State.setStage, State.record,
        State.begin]
    · simp [State.appendValue, State.setValues, State.setItem, State.setStage, State.record,
        State.begin, update_of_ne same]
  have status : ∀ p, p ≠ o → (s.appendValue o c (s.chain.lane o)).chain.status p =
      s.chain.status p := fun p other => update_of_ne other _ _
  have operation : ∀ p, p ≠ o → (s.appendValue o c (s.chain.lane o)).operations p =
      s.operations p := fun p other => update_of_ne other _ _
  have bodies : ∀ p, ((s.appendValue o c (s.chain.lane o)).operations p).body =
      (s.operations p).body := update_body _
  constructor
  · intro e mem
    simp only [State.appendValue, State.record, List.mem_cons] at mem
    rcases mem with rfl | rfl | old
    · exact ilt
    · exact ilt
    · exact h.known e old
  · intro d i j v deadline n mem
    rw [keys]
    simp only [State.appendValue, State.record, List.mem_cons, Event.appended.injEq] at mem
    rcases mem with bad | ⟨rfl, rfl, rfl, rfl, rfl, rfl⟩ | old
    · cases bad
    · refine ⟨clt, rfl, rfl, named, ?_⟩
      intro reached some
      simp only [State.expired] at unexpired
      rw [Option.mem_def.mp some] at unexpired
      simpa using unexpired
    · exact h.appended old
  · intro i klt j
    have old := h.contents klt j
    have head : slotEntry i j (.joinStarted o (s.chain.lane o) : Event V) = none := rfl
    simp only [State.appendValue, State.record]
    rw [slotLog_cons_quiet head, slotLog_cons_append]
    by_cases same : i = s.chain.lane o
    · subst i
      simp only [State.setStage, State.setValues, State.setItem, State.begin, update_self,
        slot_pushValue _ _ small, true_and]
      split
      · rw [old]
      · exact old
    · have other : ¬ (s.chain.lane o = i ∧ (s.calls c).index = j) := fun both => same both.1.symm
      rw [if_neg other]
      simpa [State.setStage, State.setValues, State.setItem, State.begin, update_of_ne same] using old
  · intro p plt idle
    by_cases same : p = o
    · subst p
      simp [State.appendValue, State.record, State.setStage, State.setValues, State.setItem,
        State.begin, Chain.start] at idle
    · rw [operation p same]
      rw [status p same] at idle
      exact h.idle plt idle
  · intro p d plt running pbody
    rw [marks]
    by_cases same : p = o
    · subst p
      exact unprocessed
    · rw [status p same] at running
      rw [bodies] at pbody
      exact h.joining plt running pbody
  · intro i e mem terminal
    simp only [State.appendValue, State.record, List.mem_cons] at mem
    rw [marks]
    rcases mem with rfl | rfl | old
    · obtain ⟨p, bad | bad⟩ := terminal <;> cases bad
    · obtain ⟨p, bad | bad⟩ := terminal <;> cases bad
    · rcases h.marked e old terminal with processed | ⟨p, d, plt, lane, running, pbody, stage⟩
      · exact Or.inl processed
      · have same : p ≠ o := Chain.running_apart running waiting
        refine Or.inr ⟨p, d, plt, lane, ?_⟩
        rw [status p same, operation p same]
        exact ⟨running, pbody, stage⟩
  · intro p i e mem starts
    simp only [State.appendValue, State.record, List.mem_cons] at mem
    rcases mem with rfl | rfl | old
    · rcases starts with eq | eq
      · cases eq
        refine ⟨lt, rfl, Or.inr ⟨?_, ?_⟩⟩
        · simp [State.appendValue, State.record, State.setStage, State.setValues, State.setItem,
            State.begin, Chain.start]
        · simp [State.appendValue, State.record, State.setStage]
      · cases eq
    · rcases starts with eq | eq <;> cases eq
    · obtain ⟨plt, lane, progress⟩ := h.callbacks e old starts
      refine ⟨plt, lane, ?_⟩
      rcases progress with ⟨f, fmem, returns⟩ | ⟨running, stage⟩
      · exact Or.inl ⟨f, List.mem_cons_of_mem _ (List.mem_cons_of_mem _ fmem), returns⟩
      · have same : p ≠ o := Chain.running_apart running waiting
        rw [status p same, operation p same]
        exact Or.inr ⟨running, stage⟩
  · refine ⟨?_, ?_, h.lawful⟩
    · intro i uses e mem terminal
      cases uses
      rcases List.mem_cons.mp mem with rfl | old
      · obtain ⟨p, bad | bad⟩ := terminal <;> cases bad
      · exact clear e old terminal
    · intro i uses e mem terminal
      cases uses
      exact clear e mem terminal

theorem groups_enterDeadline {s : State K V} (wired : Wired s) (h : Groups s) {o a : Nat}
    (ready : s.chain.ready o = true) (body : (s.operations o).body = .expire a)
    (unprocessed : (s.items (s.chain.lane o)).processed = false) :
    Groups (s.enterDeadline o (s.chain.lane o)) := by
  obtain ⟨lt, waiting, _⟩ := (Chain.ready_iff _ _).mp ready
  have clear := open_group wired h ready unprocessed
  have keys : ∀ j, ((s.enterDeadline o (s.chain.lane o)).items j).key = (s.items j).key :=
    update_key _ rfl
  have values : ∀ j, ((s.enterDeadline o (s.chain.lane o)).items j).values = (s.items j).values := by
    intro j
    by_cases same : j = s.chain.lane o
    · subst j
      simp [State.enterDeadline, State.setProcessed, State.setItem, State.setStage, State.record,
        State.begin]
    · simp [State.enterDeadline, State.setProcessed, State.setItem, State.setStage, State.record,
        State.begin, update_of_ne same]
  have marks : ∀ j, j ≠ s.chain.lane o →
      ((s.enterDeadline o (s.chain.lane o)).items j).processed = (s.items j).processed := by
    intro j other
    simp [State.enterDeadline, State.setProcessed, State.setItem, State.setStage, State.record,
      State.begin, update_of_ne other]
  have mark : ((s.enterDeadline o (s.chain.lane o)).items (s.chain.lane o)).processed = true := by
    simp [State.enterDeadline, State.setProcessed, State.setItem, State.setStage, State.record]
  have status : ∀ p, p ≠ o → (s.enterDeadline o (s.chain.lane o)).chain.status p =
      s.chain.status p := fun p other => update_of_ne other _ _
  have operation : ∀ p, p ≠ o → (s.enterDeadline o (s.chain.lane o)).operations p =
      s.operations p := fun p other => update_of_ne other _ _
  have bodies : ∀ p, ((s.enterDeadline o (s.chain.lane o)).operations p).body =
      (s.operations p).body := update_body _
  constructor
  · intro e mem
    rcases List.mem_cons.mp mem with rfl | old
    · exact wired.lane_item lt
    · exact h.known e old
  · intro c i j v d n mem
    rw [keys]
    rcases List.mem_cons.mp mem with bad | old
    · cases bad
    · exact h.appended old
  · intro i ilt j
    have head : slotEntry i j (.deadlineStarted o (s.chain.lane o) : Event V) = none := rfl
    rw [values]
    exact (h.contents ilt j).trans (slotLog_cons_quiet head).symm
  · intro p plt idle
    by_cases same : p = o
    · subst p
      simp [State.enterDeadline, State.record, State.setStage, State.setProcessed, State.setItem,
        State.begin, Chain.start] at idle
    · rw [operation p same]
      rw [status p same] at idle
      exact h.idle plt idle
  · intro p c plt running pbody
    have same : p ≠ o := by
      rintro rfl
      rw [bodies, body] at pbody
      cases pbody
    rw [status p same] at running
    rw [operation p same] at pbody
    -- the lane of the deadline was idle, so a running join belongs to another group
    have elsewhere : s.chain.lane p ≠ s.chain.lane o := fun lane =>
      Chain.ready_lane_idle wired.chain ready plt lane running
    exact (marks _ elsewhere).trans (h.joining plt running pbody)
  · intro i e mem terminal
    rcases List.mem_cons.mp mem with rfl | old
    · have here : s.chain.lane o = i := terminal_item terminal
      exact Or.inl (here ▸ mark)
    · rcases h.marked e old terminal with processed | ⟨p, d, plt, lane, running, pbody, stage⟩
      · by_cases same : i = s.chain.lane o
        · exact Or.inl (same ▸ mark)
        · exact Or.inl ((marks i same).trans processed)
      · have same : p ≠ o := Chain.running_apart running waiting
        refine Or.inr ⟨p, d, plt, lane, ?_⟩
        rw [status p same, operation p same]
        exact ⟨running, pbody, stage⟩
  · intro p i e mem starts
    rcases List.mem_cons.mp mem with rfl | old
    · rcases starts with eq | eq
      · cases eq
      · cases eq
        refine ⟨lt, rfl, Or.inr ⟨?_, ?_⟩⟩
        · simp [State.enterDeadline, State.record, State.setStage, State.setProcessed,
            State.setItem, State.begin, Chain.start]
        · simp [State.enterDeadline, State.record, State.setStage]
    · obtain ⟨plt, lane, progress⟩ := h.callbacks e old starts
      refine ⟨plt, lane, ?_⟩
      rcases progress with ⟨f, fmem, returns⟩ | ⟨running, stage⟩
      · exact Or.inl ⟨f, List.mem_cons_of_mem _ fmem, returns⟩
      · have same : p ≠ o := Chain.running_apart running waiting
        rw [status p same, operation p same]
        exact Or.inr ⟨running, stage⟩
  · refine ⟨?_, h.lawful⟩
    intro i uses e mem terminal
    cases uses
    exact clear e mem terminal

/- The write of `processed` and the settlement are one step: in between, the
   operation would be running on a group it has already closed. -/
theorem groups_processed {s : State K V} (wired : Wired s) (h : Groups s) {o c : Nat}
    {processed : Bool} (lt : o < s.chain.next) (running : s.chain.status o = .running)
    (body : (s.operations o).body = .join c)
    (stage : (s.operations o).stage = .returned (.returned processed)) :
    Groups ((s.setProcessed (s.chain.lane o) processed).settle o) := by
  have unprocessed := h.joining lt running body
  have keys : ∀ j, ((s.setProcessed (s.chain.lane o) processed).items j).key = (s.items j).key :=
    update_key _ rfl
  have values : ∀ j, ((s.setProcessed (s.chain.lane o) processed).items j).values =
      (s.items j).values := by
    intro j
    by_cases same : j = s.chain.lane o
    · subst j
      simp [State.setProcessed, State.setItem]
    · simp [State.setProcessed, State.setItem, update_of_ne same]
  have mark : ((s.setProcessed (s.chain.lane o) processed).items (s.chain.lane o)).processed =
      processed := by
    simp [State.setProcessed, State.setItem]
  have marks : ∀ j, j ≠ s.chain.lane o →
      ((s.setProcessed (s.chain.lane o) processed).items j).processed = (s.items j).processed := by
    intro j other
    simp [State.setProcessed, State.setItem, update_of_ne other]
  constructor
  · exact h.known
  · intro d i j v deadline n mem
    obtain ⟨dlt, index, value, key, fresh⟩ := h.appended mem
    exact ⟨dlt, index, value, (keys i).trans key, fresh⟩
  · intro i ilt j
    exact (congrArg (slot · j) (values i)).trans (h.contents ilt j)
  · intro p plt waiting
    by_cases same : p = o
    · subst p
      simp [State.settle, Chain.settle] at waiting
    · have before : s.chain.status p = .waiting := by
        simpa [State.settle, Chain.settle, State.setProcessed, State.setItem, update_of_ne same]
          using waiting
      exact h.idle plt before
  · intro p d plt prunning pbody
    have same : p ≠ o := by
      rintro rfl
      simp [State.settle, Chain.settle] at prunning
    have before : s.chain.status p = .running := by
      simpa [State.settle, Chain.settle, State.setProcessed, State.setItem, update_of_ne same]
        using prunning
    have elsewhere : s.chain.lane p ≠ s.chain.lane o := fun lane =>
      same (Chain.running_unique wired.chain plt lt lane before running)
    exact (marks _ elsewhere).trans (h.joining plt before pbody)
  · intro i e mem terminal
    rcases h.marked e mem terminal with closed | ⟨p, d, plt, lane, prunning, pbody, pstage⟩
    · have elsewhere : i ≠ s.chain.lane o := by
        rintro rfl
        rw [unprocessed] at closed
        cases closed
      exact Or.inl ((marks i elsewhere).trans closed)
    · by_cases same : p = o
      · subst p
        rw [stage] at pstage
        cases pstage
        exact Or.inl (lane ▸ mark)
      · refine Or.inr ⟨p, d, plt, lane, ?_, pbody, pstage⟩
        simpa [State.settle, Chain.settle, State.setProcessed, State.setItem, update_of_ne same]
          using prunning
  · intro p i e mem starts
    obtain ⟨plt, lane, returned | ⟨prunning, pstage⟩⟩ := h.callbacks e mem starts
    · exact ⟨plt, lane, Or.inl returned⟩
    · have same : p ≠ o := by
        rintro rfl
        rw [stage] at pstage
        cases pstage
      refine ⟨plt, lane, Or.inr ⟨?_, pstage⟩⟩
      simpa [State.settle, Chain.settle, State.setProcessed, State.setItem, update_of_ne same]
        using prunning
  · exact h.lawful

theorem running_marked {s : State K V} (wired : Wired s) (h : Groups s) {o : Nat}
    (lt : o < s.chain.next) (running : s.chain.status o = .running)
    (other : ∀ c, (s.operations o).body = .join c → (s.operations o).stage ≠ .returned (.returned true)) :
    ∀ e ∈ s.history, e.Terminal (s.chain.lane o) → (s.items (s.chain.lane o)).processed = true := by
  intro e mem terminal
  rcases h.marked e mem terminal with processed | ⟨p, c, plt, lane, prunning, body, stage⟩
  · exact processed
  · have same := Chain.running_unique wired.chain plt lt lane prunning running
    subst p
    exact absurd stage (other c body)

/-- What an operation finds when it is about to start. -/
theorem ready_marked {s : State K V} (wired : Wired s) (h : Groups s) {o : Nat}
    (ready : s.chain.ready o = true) :
    ∀ e ∈ s.history, e.Terminal (s.chain.lane o) → (s.items (s.chain.lane o)).processed = true := by
  intro e mem terminal
  by_contra unprocessed
  exact open_group wired h ready (by simpa using unprocessed) e mem terminal

theorem groups_startJoin {s : State K V} (wired : Wired s) (h : Groups s) {o c : Nat}
    (ready : s.chain.ready o = true) (body : (s.operations o).body = .join c) :
    Groups (s.startJoin o c (s.chain.lane o)) := by
  obtain ⟨lt, waiting, _⟩ := (Chain.ready_iff _ _).mp ready
  have marked := ready_marked wired h ready
  unfold State.startJoin
  split
  · have settled : Groups (s.settle o) := groups_settle h (by simp [waiting]) marked
    rw [State.settleJoin, begin_settle]
    exact groups_quiet settled wired.lane_item (quiet_setPhase _ _ _)
  · split
    · have padded := groups_padValues h (s.chain.lane o) (s.calls c).index
      have settled := groups_settle padded (o := o) (by simp [State.setValues, State.setItem, waiting])
        (by simpa [State.setValues, State.setItem] using marked)
      have commute : ((s.begin o).setValues (s.chain.lane o) (State.padValues
          (s.items (s.chain.lane o)).values (s.calls c).index)).settle o = State.settle _ o :=
        begin_settle (s.setValues _ _) o
      rw [State.settleJoin, commute]
      exact groups_quiet settled wired.lane_item (quiet_setPhase _ _ _)
    · rename_i accepts small
      exact groups_appendValue wired h ready body (by simpa using accepts) (by omega)

theorem groups_startExpire {s : State K V} (wired : Wired s) (h : Groups s) {o a : Nat}
    (ready : s.chain.ready o = true) (body : (s.operations o).body = .expire a) :
    Groups (s.startExpire o a (s.chain.lane o)) := by
  obtain ⟨lt, waiting, _⟩ := (Chain.ready_iff _ _).mp ready
  have settled : Groups (s.settle o) :=
    groups_settle h (by simp [waiting]) (ready_marked wired h ready)
  obtain ⟨alt, item⟩ := wired.expire_body lt body
  obtain ⟨ilt, named⟩ := wired.arm_item alt
  unfold State.startExpire
  split
  · rw [begin_settle]
    exact settled
  · split
    · have only : ArmsOnly (s.begin o) ((s.begin o).rearm a (s.chain.lane o)) :=
        armsOnly_trans (cancelDeadline_armsOnly _ _)
          (armDeadline_armsOnly _ _ (item ▸ ilt) (item ▸ named))
      have quiet := quiet_settle (quiet_armsOnly only) lt
      rw [begin_settle] at quiet
      exact groups_quiet settled wired.lane_item quiet
    · rename_i unprocessed _
      exact groups_enterDeadline wired h ready body (by simpa using unprocessed)

theorem groups_continueJoin {s : State K V} (wired : Wired s) (h : Groups s) {o c : Nat}
    {processed : Bool} (lt : o < s.chain.next) (running : s.chain.status o = .running)
    (body : (s.operations o).body = .join c)
    (stage : (s.operations o).stage = .returned (.returned processed)) :
    Groups (s.continueJoin o c (s.chain.lane o) processed) := by
  have closed := groups_processed wired h lt running body stage
  have named : ((s.setProcessed (s.chain.lane o) processed).items (s.chain.lane o)).key =
      (s.calls c).key := by
    simpa [State.setProcessed, State.setItem] using (wired.join_body lt body).2
  have concluded := quiet_concludeJoin (s := s.setProcessed (s.chain.lane o) processed)
    (wired.lane_item lt) named processed
  exact groups_quiet closed wired.lane_item
    (quiet_trans (quiet_settle concluded lt) (quiet_setPhase _ _ _))

theorem groups_continueExpire {s : State K V} (wired : Wired s) (h : Groups s) {o a : Nat}
    {outcome : CallbackOutcome} (lt : o < s.chain.next) (running : s.chain.status o = .running)
    (body : (s.operations o).body = .expire a)
    (stage : (s.operations o).stage = .returned outcome) :
    Groups (s.continueExpire o a (s.chain.lane o)) := by
  have settled : Groups (s.settle o) :=
    groups_settle h (by simp [stage]) (running_marked wired h lt running (by simp [body]))
  exact groups_quiet settled wired.lane_item (quiet_settle (quiet_concludeExpire s a _) lt)

theorem groups_callbackReturns {s t : State K V} (wired : Wired s) (h : Groups s) {o : Nat}
    {outcome : CallbackOutcome} (next : s.callbackReturns o outcome = some t) : Groups t := by
  obtain ⟨lt, running, inside, ⟨c, body, rfl⟩ | ⟨a, body, rfl⟩⟩ := callbackReturns_cases next
  · refine groups_returned h lt running inside (wired.lane_item lt) ⟨_, _, Or.inl rfl⟩ (fun _ => id) ?_
    rintro i ⟨p, eq | eq⟩
    · cases eq
      exact ⟨rfl, rfl, c, body⟩
    · cases eq
  · refine groups_returned h lt running inside (wired.lane_item lt) ⟨_, _, Or.inr rfl⟩ (fun _ => id) ?_
    rintro i ⟨p, eq | eq⟩ <;> cases eq

theorem quiet_joinValue (s : State K V) (context : Context) (key : K) (index : Number) (value : V) :
    Quiet s (s.joinValue context key index value) := by
  rcases joinValue_cases s context key index value with eq | ⟨slot, _, eq | ⟨active, eq⟩⟩ <;> rw [eq]
  · exact quiet_enterCall s _ _ _ _ _
  · exact quiet_enterCall s _ _ _ _ _
  · exact quiet_trans (quiet_trans (quiet_enterCall s _ _ _ _ _) (quiet_active _ active))
      (quiet_iterate _ _)

omit [DecidableEq K] in
theorem quiet_fire {s t : State K V} {a : Nat} (next : s.fire a = some t) : Quiet s t := by
  obtain ⟨lt, _, rfl⟩ := fire_cases next
  exact quiet_armsOnly (armsOnly_trans (disarm_armsOnly s a) (expire_armsOnly (s.disarm a) lt))

theorem groups_step {s t : State K V} {a : Action K V} (wired : Wired s) (h : Groups s)
    (next : step s a = some t) : Groups t := by
  cases a with
  | joinValue context key index value =>
    cases next
    exact groups_quiet h wired.lane_item (quiet_joinValue s context key index value)
  | enter c =>
    obtain ⟨_, _, _, rfl⟩ := enter_cases next
    exact groups_quiet h wired.lane_item
      (quiet_trans (quiet_active s _) (quiet_iterate _ c))
  | startOperation o =>
    obtain ⟨ready, ⟨c, body, rfl⟩ | ⟨b, body, rfl⟩⟩ := startOperation_cases next
    · exact groups_startJoin wired h ready body
    · exact groups_startExpire wired h ready body
  | callbackReturns o outcome => exact groups_callbackReturns wired h next
  | continueOperation o =>
    obtain ⟨lt, running, ⟨c, processed, body, stage, rfl⟩ | ⟨c, body, stage, rfl⟩ |
      ⟨b, outcome, body, stage, rfl⟩⟩ := continueOperation_cases next
    · exact groups_continueJoin wired h lt running body stage
    · have settled : Groups (s.settle o) :=
        groups_settle h (by simp [stage]) (running_marked wired h lt running (by simp [stage]))
      exact groups_quiet settled wired.lane_item (quiet_setPhase _ _ _)
    · exact groups_continueExpire wired h lt running body stage
  | resume c =>
    obtain ⟨_, ⟨_, rfl⟩ | ⟨_, rfl⟩ | ⟨_, _, rfl⟩⟩ := resume_cases next
    · exact groups_quiet h wired.lane_item (quiet_leave s c _)
    · exact groups_quiet h wired.lane_item (quiet_iterate s c)
    · exact groups_quiet h wired.lane_item (quiet_leave s c _)
  | fire b => exact groups_quiet h wired.lane_item (quiet_fire next)
  | _ =>
    obtain ⟨objects, history⟩ := outside_step next trivial
    exact groups_quiet h wired.lane_item (quiet_frame objects history)

omit [DecidableEq K] in
theorem groups_initial [Inhabited K] [Inhabited V] {s : State K V} (h : Initial s) : Groups s := by
  obtain ⟨ttlMs, renewTTL, metricsEnabled, now, contextNow, aborted, rfl⟩ := h
  constructor <;> simp [initial, Chain.empty, Lawful]

theorem groups_reachable [Inhabited K] [Inhabited V] {ok : State K V → Action K V → Prop}
    {s : State K V} (reach : ReachableWith ok s) : Wired s ∧ Groups s := by
  obtain ⟨s₀, start, run⟩ := reach
  refine Transitions.steps_invariant (fun s => Wired s ∧ Groups s) ?_ run
    ⟨wired_initial start, groups_initial start⟩
  rintro s a t ⟨wired, groups⟩ _ next
  exact ⟨wired_step wired next, groups_step wired groups next⟩

end Groups

end JoinStorage
