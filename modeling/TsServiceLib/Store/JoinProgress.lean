import Mathlib.Data.Prod.Lex
import Mathlib.Order.ConditionallyCompleteLattice.Basic
import Mathlib.Order.Lattice.Nat
import TsServiceLib.Library.Fairness
import TsServiceLib.Store.JoinService

/-!
Progress of the retry loop. Left alone, a call makes at most two more passes:
one to join the group it finds, which may be closed before its turn comes, and
one to create a group of its own. Between two passes it waits for the operations
ahead of it on one lane, and each of those has a next step. The conditions of
`InTime` are needed for both; the last section shows how a call whose context is
aborted with time left spins for ever.
-/
namespace JoinStorage
open OrderedMaps TailChain Numbers Function

section Passes
variable {K V : Type} [DecidableEq K]

/-- What is stored for the key, if anything, has expired and cannot be renewed. -/
def DeadEntry (s : State K V) (k : K) : Prop :=
  ∀ i, s.entry k = some i → s.expired i = true ∧
    ∀ o d, o < s.chain.next → s.chain.lane o = i → (s.operations o).body = .join d →
      s.chain.status o ≠ .running

/-- Whatever is stored for the key of the call is the group it waits for. -/
def OwnEntry (s : State K V) (c o : Nat) : Prop :=
  ∀ i, s.entry (s.calls c).key = some i → i = s.chain.lane o

open Classical in
/-- The passes a call may still need when it is left alone. -/
noncomputable def passesLeft (s : State K V) (c : Nat) : Nat :=
  match (s.calls c).phase with
  | .entering => 2
  | .awaiting o =>
    if s.chain.status o = .waiting ∧ ¬ First s o then if OwnEntry s c o then 1 else 2 else 0
  | .resuming (.value false) => if DeadEntry s (s.calls c).key then 1 else 2
  | _ => 0

theorem passesLeft_le_two (s : State K V) (c : Nat) : passesLeft s c ≤ 2 := by
  unfold passesLeft
  split
  · omega
  · split
    · split <;> omega
    · omega
  · split <;> omega
  · omega

omit [DecidableEq K] in
theorem expired_later {s t : State K V} {i : Nat} (expired : s.expired i = true)
    (deadline : (t.items i).deadline = (s.items i).deadline) (now : s.now ≤ t.now) :
    t.expired i = true := by
  unfold State.expired at expired ⊢
  rw [deadline]
  split at expired
  · cases expired
  · simp only [decide_eq_true_eq] at expired ⊢
    exact le_trans expired (Ticks.finite_le_finite now)

/- A dead entry stays dead: to renew it an operation would have to append first,
   and none does so to an expired group. -/
theorem deadEntry_serves {c : Nat} {s t : State K V} (wired : Wired s) (served : Serves c s t) {k : K}
    (dead : DeadEntry s k) : DeadEntry t k := by
  intro i stored
  have before := served.entry k i stored
  obtain ⟨expired, idle⟩ := dead i before
  have ilt := (entry_item wired.stored before).1
  refine ⟨?_, ?_⟩
  · rcases served.deadline ilt with same | ⟨o, d, olt, lane, running, body⟩
    · exact expired_later expired same served.now
    · exact absurd running (idle o d olt lane body)
  · intro o d lt lane body running
    by_cases old : o < s.chain.next
    · rw [served.lane old] at lane
      rw [served.body old] at body
      rcases served.began old body running with runs | ⟨_, accepts⟩
      · exact idle o d old lane body runs
      · rw [lane] at accepts
        simp [State.refuses, expired] at accepts
    · rw [served.fresh (Nat.le_of_not_lt old) lt] at running
      cases running

/- A call is refused by the group stored for its key: that group has expired, for
   a processed one is either removed or inside the callback of another operation. -/
theorem refused_deadEntry {c o : Nat} {s t : State K V} (wired : Wired s) (phases : Phases s)
    (served : Serves c s t) (ready : s.chain.ready o = true)
    (body : (s.operations o).body = .join c) (refused : s.refuses c (s.chain.lane o) = true)
    (own : OwnEntry s c o) : DeadEntry t (s.calls c).key := by
  obtain ⟨lt, _, _⟩ := (Chain.ready_iff _ _).mp ready
  intro i stored
  have before := served.entry _ i stored
  have here := own i before
  subst here
  have ilt := wired.lane_item lt
  have named := (wired.join_body lt body).2
  have located : (s.locate (s.calls c).key (s.chain.lane o)).isNone = false := by
    cases located : s.locate (s.calls c).key (s.chain.lane o) with
    | some _ => rfl
    | none => exact absurd before ((locate_eq_none wired.stored _ _).mp located)
  have unprocessed : (s.items (s.chain.lane o)).processed = false := by
    by_contra processed
    obtain ⟨p, a, plt, lane, running, _⟩ :=
      phases.closing ilt (by simpa using processed) (by rw [named]; exact before)
    exact Chain.ready_lane_idle wired.chain ready plt lane running
  have expired : s.expired (s.chain.lane o) = true := by
    simpa [State.refuses, located, unprocessed] using refused
  refine ⟨?_, ?_⟩
  · rcases served.deadline ilt with same | ⟨p, d, plt, lane, running, _⟩
    · exact expired_later expired same served.now
    · exact absurd running (Chain.ready_lane_idle wired.chain ready plt lane)
  · intro p d plt lane joins running
    by_cases old : p < s.chain.next
    · rw [served.lane old] at lane
      rw [served.body old] at joins
      rcases served.began old joins running with runs | ⟨_, accepts⟩
      · exact Chain.ready_lane_idle wired.chain ready old lane runs
      · rw [lane] at accepts
        simp [State.refuses, expired] at accepts
    · rw [served.fresh (Nat.le_of_not_lt old) plt] at running
      cases running

theorem passesLeft_serves {c : Nat} {s t : State K V} (sound : Sound s) (made : c < s.nextCall)
    (served : Serves c s t) : passesLeft t c ≤ passesLeft s c := by
  have wired := sound.wired
  rcases served.call with same | ⟨o, result, phase, moved, refusal⟩
  · unfold passesLeft
    rw [same]
    cases phase : (s.calls c).phase with
    | awaiting o =>
      obtain ⟨lt, _⟩ := wired.awaiting made phase
      have lane := served.lane lt
      by_cases still : t.chain.status o = .waiting ∧ ¬ First t o
      · have waiting : s.chain.status o = .waiting := by
          have more := served.load lt
          rw [load_waiting.mpr still.1] at more
          exact load_waiting.mp (Nat.le_antisymm (load_le_three s o) more)
        have later : ¬ First s o := fun first => still.2 (first_kept served.lane lt first)
        by_cases own : OwnEntry s c o
        · have kept : OwnEntry t c o := by
            intro i stored
            rw [same] at stored
            rw [lane]
            exact own i (served.entry _ i stored)
          simp [still, waiting, later, own, kept]
        · simp only [still, waiting, later, own, not_false_eq_true, and_self, ↓reduceIte]
          split <;> omega
      · simp [still]
    | resuming result =>
      cases result with
      | value joined =>
        cases joined with
        | true => simp
        | false =>
          by_cases dead : DeadEntry s (s.calls c).key
          · simp [dead, deadEntry_serves wired served dead]
          · simp only [dead, ↓reduceIte]
            split <;> omega
      | rejected error => simp
    | _ => simp
  · cases result with
    | rejected error => simp [passesLeft, moved]
    | value joined =>
      cases joined with
      | true => simp [passesLeft, moved]
      | false =>
        obtain ⟨ready, refused, live⟩ := refusal rfl
        obtain ⟨lt, waiting, _⟩ := (Chain.ready_iff _ _).mp ready
        obtain ⟨_, body, _⟩ := wired.awaiting made phase
        -- the first operation of a group would have been accepted
        have later : ¬ First s o := by
          intro first
          have accepts := live_accepts wired.stored (live c body first)
            (first_unprocessed wired sound.phases lt first waiting)
          rw [accepts] at refused
          cases refused
        by_cases own : OwnEntry s c o
        · have dead := refused_deadEntry wired sound.phases served ready body refused own
          simp [passesLeft, moved, phase, waiting, later, own, dead]
        · have two : passesLeft s c = 2 := by
            simp [passesLeft, phase, waiting, later, own]
          rw [two]
          exact passesLeft_le_two t c

theorem dead_findLive {s : State K V} {k : K} (dead : DeadEntry s k) : s.findLive k = none := by
  rw [findLive_entry]
  cases stored : s.entry k with
  | none => rfl
  | some i => simp [Option.filter, (dead i stored).1]

/- A pass of the call: it fails, or it uses one of the passes that were left. -/
theorem passesLeft_iterate {s : State K V} (wired : Wired s) {c : Nat} (unaborted : PassUnaborted s c)
    (looping : (s.calls c).phase = .entering ∨ (s.calls c).phase = .resuming (.value false)) :
    (((s.iterate c).calls c).phase = .rejected .arrayLength ∧
        ((s.iterate c).calls c).iterations = (s.calls c).iterations) ∨
      (((s.iterate c).calls c).iterations = (s.calls c).iterations + 1 ∧
        passesLeft (s.iterate c) c + 1 ≤ passesLeft s c) := by
  have some_left : 1 ≤ passesLeft s c := by
    unfold passesLeft
    rcases looping with phase | phase
    · simp [phase]
    · simp only [phase]
      split <;> omega
  cases live : s.findLive (s.calls c).key with
  | some i =>
    have passed : s.iterate c = s.joinItem c i := by simp [State.iterate, live]
    have two : passesLeft s c = 2 := by
      unfold passesLeft
      rcases looping with phase | phase
      · simp [phase]
      · have alive : ¬ DeadEntry s (s.calls c).key := by
          intro dead
          rw [dead_findLive dead] at live
          cases live
        simp [phase, alive]
    refine Or.inr ⟨by simp [passed, State.joinItem], ?_⟩
    have own : OwnEntry (s.iterate c) c s.chain.next := by
      intro j stored
      have before : s.entry (s.calls c).key = some j := by
        simpa [passed, State.joinItem, State.enqueue, State.entry] using stored
      rw [(live_entry live).1] at before
      cases before
      simp [passed, State.joinItem, State.enqueue, Chain.attach]
    have phase : ((s.iterate c).calls c).phase = .awaiting s.chain.next := by
      simp [passed, State.joinItem]
    rw [two]
    simp only [passesLeft, phase, own, ↓reduceIte]
    split <;> omega
  | none =>
    by_cases small : maxArrayLength < (s.calls c).index + 1
    · refine Or.inl ?_
      simp only [State.iterate, live, small, ↓reduceIte]
      rw [(leave_calls s c _).1]
      simp
    · obtain ⟨_, _, phase, first⟩ := iterate_creates wired live small unaborted
      refine Or.inr ⟨?_, ?_⟩
      · simp [State.iterate, live, small, State.joinItem, (createItem_new s c).1]
      · have done : passesLeft (s.iterate c) c = 0 := by simp [passesLeft, phase, first]
        omega

theorem alone_step {c : Nat} {s t : State K V} {a : Action K V} (sound : Sound s)
    (inTime : InTime s a) (alone : Alone c s a) (next : step s a = some t) :
    (¬ OwnPass c a ∧ Serves c s t) ∨
      (((s.calls c).phase = .entering ∨ (s.calls c).phase = .resuming (.value false)) ∧
        ∃ u, Wired u ∧ PassUnaborted u c ∧ u.calls = s.calls ∧ passesLeft u c = passesLeft s c ∧
          t = u.iterate c) ∨
      ∃ phase, t = s.leave c phase ∧ ((s.calls c).phase = .resuming (.value true) ∧
          phase = .returned ∨ ∃ error, (s.calls c).phase = .resuming (.rejected error) ∧
          phase = .rejected error) := by
  have wired := sound.wired
  by_cases own : OwnPass c a
  · cases a with
    | enter d =>
      have same : d = c := own
      subst d
      obtain ⟨_, phase, _, rfl⟩ := enter_cases next
      exact Or.inr (Or.inl ⟨Or.inl phase, s.setActive (s.activeTTLJoins + 1),
        wired_active wired _, inTime, rfl, rfl, rfl⟩)
    | resume d =>
      have same : d = c := own
      subst d
      obtain ⟨_, ⟨phase, rfl⟩ | ⟨phase, rfl⟩ | ⟨error, phase, rfl⟩⟩ := resume_cases next
      · exact Or.inr (Or.inr ⟨_, rfl, Or.inl ⟨phase, rfl⟩⟩)
      · exact Or.inr (Or.inl ⟨Or.inr phase, s, wired, inTime phase, rfl, rfl, rfl⟩)
      · exact Or.inr (Or.inr ⟨_, rfl, Or.inr ⟨error, phase, rfl⟩⟩)
    | _ => exact own.elim
  · exact Or.inl ⟨own, serves_step wired inTime alone own next⟩

theorem serves_iterations {c : Nat} {s t : State K V} (served : Serves c s t) :
    (t.calls c).iterations = (s.calls c).iterations := by
  rcases served.call with same | ⟨o, result, _, moved, _⟩
  · rw [same]
  · rw [moved]

theorem nextCall_step {s t : State K V} {a : Action K V} (wired : Wired s)
    (next : step s a = some t) : s.nextCall ≤ t.nextCall := by
  cases a with
  | joinValue context key index value =>
    cases next
    exact (quiet_joinValue s context key index value).nextCall_le
  | enter c =>
    obtain ⟨_, _, _, rfl⟩ := enter_cases next
    exact (quiet_iterate (s.setActive (s.activeTTLJoins + 1)) c).nextCall_le
  | startOperation o => exact le_of_eq (origins_startOperation wired next).nextCall.symm
  | callbackReturns o outcome =>
    obtain ⟨_, _, _, ⟨c, _, rfl⟩ | ⟨b, _, rfl⟩⟩ := callbackReturns_cases next <;> exact le_refl _
  | continueOperation o => exact le_of_eq (origins_continueOperation wired next).nextCall.symm
  | resume c =>
    obtain ⟨_, ⟨_, rfl⟩ | ⟨_, rfl⟩ | ⟨_, _, rfl⟩⟩ := resume_cases next
    · exact (quiet_leave s c _).nextCall_le
    · exact (quiet_iterate s c).nextCall_le
    · exact (quiet_leave s c _).nextCall_le
  | fire b => exact (quiet_fire next).nextCall_le
  | _ =>
    obtain ⟨objects, history⟩ := outside_step next trivial
    exact (quiet_frame objects history).nextCall_le

theorem passes_step {c : Nat} {s t : State K V} {a : Action K V} (sound : Sound s)
    (made : c < s.nextCall) (inTime : InTime s a) (alone : Alone c s a) (next : step s a = some t) :
    (t.calls c).iterations + passesLeft t c ≤ (s.calls c).iterations + passesLeft s c := by
  rcases alone_step sound inTime alone next with ⟨_, served⟩ | ⟨looping, u, wired, unaborted,
    calls, left, rfl⟩ | ⟨phase, rfl, ends⟩
  · have fewer := passesLeft_serves sound made served
    rw [serves_iterations served]
    omega
  · rw [← calls] at looping ⊢
    rcases passesLeft_iterate wired unaborted looping with ⟨rejected, same⟩ | ⟨more, used⟩
    · have none_left : passesLeft (u.iterate c) c = 0 := by simp [passesLeft, rejected]
      omega
    · omega
  · have calls := (leave_calls s c phase).1
    have none_left : passesLeft (s.leave c phase) c = 0 := by
      unfold passesLeft
      rw [calls]
      rcases ends with ⟨_, rfl⟩ | ⟨error, _, rfl⟩ <;> simp
    rw [none_left, calls]
    simp

theorem passes_run {c : Nat} {s t : State K V} (sound : Sound s) (made : c < s.nextCall)
    (run : Transitions.Steps step (fun u a => InTime u a ∧ Alone c u a) s t) :
    Sound t ∧ c < t.nextCall ∧
      (t.calls c).iterations + passesLeft t c ≤ (s.calls c).iterations + passesLeft s c := by
  induction run with
  | refl => exact ⟨sound, made, Nat.le_refl _⟩
  | tail _ admitted next ih =>
    obtain ⟨inner, known, bound⟩ := ih
    have one := passes_step inner known admitted.1 admitted.2 next
    have grows := nextCall_step inner.wired next
    exact ⟨sound_step inner admitted.1 next, by omega, by omega⟩

end Passes

section Liveness
variable {K V : Type}

/-- What somebody has to do for a call: the event loop starts operations and runs
    continuations, user code settles callbacks. -/
inductive Duty where
  | start (operation : Nat)
  | settleCallback (operation : Nat)
  | proceed (operation : Nat)
  | enter (call : Nat)
  | resume (call : Nat)

def Performs : Duty → Action K V → Prop
  | .start o, .startOperation p => p = o
  | .settleCallback o, .callbackReturns p _ => p = o
  | .proceed o, .continueOperation p => p = o
  | .enter c, .enter d => d = c
  | .resume c, .resume d => d = c
  | _, _ => False

/-- The operation that the lane of `o` is at. -/
noncomputable def head (s : State K V) (o : Nat) : Nat :=
  sInf {p | s.chain.lane p = s.chain.lane o ∧ s.load p ≠ 0}

def operationDuty (s : State K V) (o : Nat) : Duty :=
  if s.load o = 3 then .start o else if s.load o = 2 then .settleCallback o else .proceed o

noncomputable def duty (c : Nat) (s : State K V) : Duty :=
  match (s.calls c).phase with
  | .awaiting o => operationDuty s (head s o)
  | .entering => .enter c
  | _ => .resume c

/-- The steps ahead of a call on the lane it waits for. -/
noncomputable def backlog (c : Nat) (s : State K V) : Nat :=
  match (s.calls c).phase with
  | .awaiting o => (o - head s o) * 4 + s.load (head s o)
  | _ => 0

theorem head_spec {s : State K V} {o : Nat} (unsettled : s.load o ≠ 0) :
    s.chain.lane (head s o) = s.chain.lane o ∧ s.load (head s o) ≠ 0 ∧ head s o ≤ o ∧
      ∀ p, p < head s o → s.chain.lane p = s.chain.lane o → s.load p = 0 := by
  have member : o ∈ {p | s.chain.lane p = s.chain.lane o ∧ s.load p ≠ 0} := ⟨rfl, unsettled⟩
  have least := Nat.sInf_mem ⟨o, member⟩
  refine ⟨least.1, least.2, Nat.sInf_le member, ?_⟩
  intro p before lane
  by_contra loaded
  exact absurd (Nat.sInf_le (⟨lane, loaded⟩ : p ∈ {p | s.chain.lane p = s.chain.lane o ∧ s.load p ≠ 0}))
    (Nat.not_le.mpr before)

variable [DecidableEq K]

theorem awaiting_loaded {s : State K V} (wired : Wired s) {c o : Nat} (made : c < s.nextCall)
    (phase : (s.calls c).phase = .awaiting o) : o < s.chain.next ∧ s.load o ≠ 0 := by
  obtain ⟨lt, _, unsettled⟩ := wired.awaiting made phase
  exact ⟨lt, fun none_left => unsettled (load_settled.mp none_left)⟩

/- The operation at the head of a lane always has a next step. -/
theorem head_enabled {s : State K V} (wired : Wired s) (phases : Phases s) {o : Nat}
    (lt : o < s.chain.next) (loaded : s.load o ≠ 0) :
    Transitions.Enabled step Performs s (operationDuty s (head s o)) := by
  obtain ⟨lane, unsettled, le, before⟩ := head_spec loaded
  have hlt : head s o < s.chain.next := by omega
  unfold operationDuty
  split
  · rename_i full
    have waiting := load_waiting.mp full
    have ready : s.chain.ready (head s o) = true := by
      refine (Chain.ready_iff _ _).mpr ⟨hlt, waiting, ?_⟩
      intro p previous
      obtain ⟨earlier, same⟩ := wired.chain.previous_earlier hlt previous
      exact load_settled.mp (before p earlier (same.trans lane))
    refine ⟨.startOperation (head s o), ?_⟩
    simp only [step, State.startOperation, ready, ↓reduceIte]
    cases (s.operations (head s o)).body with
    | join c => exact ⟨_, rfl, rfl⟩
    | expire a => exact ⟨_, rfl, rfl⟩
  · rename_i begun
    have running : s.chain.status (head s o) = .running := by
      cases status : s.chain.status (head s o) with
      | waiting => exact absurd (load_waiting.mpr status) begun
      | running => rfl
      | settled => exact absurd (load_settled.mpr status) unsettled
    split
    · rename_i inside
      have stage : (s.operations (head s o)).stage = .inCallback := by
        cases stage : (s.operations (head s o)).stage with
        | inCallback => rfl
        | _ => simp [State.load, running, stage] at inside
      refine ⟨.callbackReturns (head s o) .threw, ?_⟩
      simp only [step, State.callbackReturns, hlt, running, stage, and_self, ↓reduceIte]
      cases (s.operations (head s o)).body with
      | join c => exact ⟨_, rfl, rfl⟩
      | expire a => exact ⟨_, rfl, rfl⟩
    · rename_i outside
      refine ⟨.continueOperation (head s o), ?_⟩
      simp only [step, State.continueOperation, hlt, running, and_self, ↓reduceIte]
      cases stage : (s.operations (head s o)).stage with
      | idle => exact absurd stage (phases.staged hlt running)
      | inCallback => simp [State.load, running, stage] at outside
      | returned outcome =>
        cases outcome with
        | threw => cases (s.operations (head s o)).body <;> exact ⟨_, rfl, rfl⟩
        | returned processed => cases (s.operations (head s o)).body <;> exact ⟨_, rfl, rfl⟩

/- The lane does not fall back, and the head of an unmoved lane is due for the same step. -/
theorem backlog_serves {c o : Nat} {s t : State K V} (served : Serves c s t)
    (lt : o < s.chain.next) (sloaded : s.load o ≠ 0) (tloaded : t.load o ≠ 0) :
    head s o ≤ head t o ∧
      ((o - head t o) * 4 + t.load (head t o) < (o - head s o) * 4 + s.load (head s o) ∨
        (head t o = head s o ∧ t.load (head s o) = s.load (head s o))) := by
  obtain ⟨slane, sunsettled, sle, _⟩ := head_spec sloaded
  obtain ⟨tlane, tunsettled, tle, _⟩ := head_spec tloaded
  have tlt : head t o < s.chain.next := by omega
  have le : head s o ≤ head t o := by
    refine Nat.sInf_le ⟨?_, ?_⟩
    · rw [← served.lane tlt, tlane, served.lane lt]
    · have more := served.load tlt
      omega
  refine ⟨le, ?_⟩
  have bound := load_le_three t (head t o)
  rcases Nat.lt_or_eq_of_le le with moved | same
  · left
    omega
  · have more := served.load tlt
    rw [← same] at more bound ⊢
    by_cases fewer : t.load (head s o) < s.load (head s o)
    · left
      omega
    · right
      exact ⟨rfl, by omega⟩

theorem stop_stays {s t : State K V} {a : Action K V} (wired : Wired s)
    (resolved : s.stopCompletion = some true) (next : step s a = some t) :
    t.stopCompletion = some true := by
  have leaves : ∀ (u : State K V) c phase, u.stopCompletion = some true →
      (u.leave c phase).stopCompletion = some true := by
    intro u c phase before
    unfold State.leave
    split
    · simp only [State.endTTLJoin, State.setPhase, before]
      split <;> rfl
    · exact before
  have iterates : ∀ (u : State K V) c, u.stopCompletion = some true →
      (u.iterate c).stopCompletion = some true := by
    intro u c before
    unfold State.iterate
    split
    · exact before
    · split
      · exact leaves u c _ before
      · simp only [State.joinItem, State.enqueue]
        unfold State.createItem
        split
        · exact (armDeadline_armsOnly (u.insertItem c) (u.calls c).context (Nat.lt_succ_self _)
            (by simp [State.insertItem, State.newItem])).stopCompletion.trans before
        · exact before
  cases a with
  | joinValue context key index value =>
    cases next
    rcases joinValue_cases s context key index value with eq | ⟨slot, _, eq | ⟨active, eq⟩⟩ <;> rw [eq]
    · exact resolved
    · exact resolved
    · exact iterates _ _ resolved
  | enter c =>
    obtain ⟨_, _, _, rfl⟩ := enter_cases next
    exact iterates _ c resolved
  | startOperation o =>
    obtain ⟨ready, ⟨c, body, rfl⟩ | ⟨b, body, rfl⟩⟩ := startOperation_cases next
    · unfold State.startJoin
      split
      · exact resolved
      · split <;> exact resolved
    · unfold State.startExpire
      split
      · exact resolved
      · split
        · exact (rearm_armsOnly wired ((Chain.ready_iff _ _).mp ready).1 body).stopCompletion.trans
            resolved
        · exact resolved
  | callbackReturns o outcome =>
    obtain ⟨_, _, _, ⟨c, _, rfl⟩ | ⟨b, _, rfl⟩⟩ := callbackReturns_cases next <;> exact resolved
  | continueOperation o =>
    have removes : ∀ (u : State K V) k i location evict, u.stopCompletion = some true →
        (u.removeAt k i location evict).stopCompletion = some true := by
      intro u k i location evict before
      unfold State.removeAt
      split <;> exact before
    obtain ⟨lt, _, ⟨c, processed, body, _, rfl⟩ | ⟨c, _, _, rfl⟩ | ⟨b, _, _, _, rfl⟩⟩ :=
      continueOperation_cases next
    · have named : ((s.setProcessed (s.chain.lane o) processed).items (s.chain.lane o)).key =
          (s.calls c).key := by
        simpa [State.setProcessed, State.setItem] using (wired.join_body lt body).2
      simp only [State.continueJoin, State.settleJoin, State.settle, State.setPhase]
      unfold State.concludeJoin
      split
      · exact resolved
      · split
        · exact removes _ _ _ _ _ resolved
        · split
          · exact (renew_armsOnly (s := s.setProcessed (s.chain.lane o) processed) _
              (wired.lane_item lt) named).stopCompletion.trans resolved
          · exact resolved
    · exact resolved
    · simp only [State.continueExpire, State.settle]
      unfold State.concludeExpire
      split
      · exact resolved
      · exact removes _ _ _ _ _ resolved
  | resume c =>
    obtain ⟨_, ⟨_, rfl⟩ | ⟨_, rfl⟩ | ⟨_, _, rfl⟩⟩ := resume_cases next
    · exact leaves s c _ resolved
    · exact iterates s c resolved
    · exact leaves s c _ resolved
  | fire b =>
    obtain ⟨lt, _, rfl⟩ := fire_cases next
    exact (armsOnly_trans (disarm_armsOnly s b)
      (expire_armsOnly (s.disarm b) lt)).stopCompletion.trans resolved
  | start =>
    cases next
    unfold State.start
    split <;> exact resolved
  | stop =>
    cases next
    simp [State.stop, resolved]
  | rotationTimer =>
    simp only [step] at next
    split at next
    · cases next
      unfold State.rotate
      split <;> exact resolved
    · cases next
  | _ =>
    cases next
    exact resolved

/-- The call has settled. -/
def Ended (c : Nat) (s : State K V) : Prop :=
  (s.calls c).phase = .returned ∨ ∃ error, (s.calls c).phase = .rejected error

/-- The call is in its loop, or enters it as soon as it is scheduled. -/
structure Underway (c : Nat) (s : State K V) : Prop where
  sound : Sound s
  made : c < s.nextCall
  unblocked : (s.calls c).phase = .entering → s.stopCompletion = some true

theorem underway_step {c : Nat} {s t : State K V} {a : Action K V} (h : Underway c s)
    (inTime : InTime s a) (alone : Alone c s a) (next : step s a = some t) : Underway c t where
  sound := sound_step h.sound inTime next
  made := Nat.lt_of_lt_of_le h.made (nextCall_step h.sound.wired next)
  unblocked := by
    intro entering
    rcases alone_step h.sound inTime alone next with ⟨_, served⟩ | ⟨_, u, _, _, _, _, rfl⟩ |
      ⟨phase, rfl, ends⟩
    · rcases served.call with same | ⟨_, _, _, moved, _⟩
      · rw [same] at entering
        exact stop_stays h.sound.wired (h.unblocked entering) next
      · rw [moved] at entering
        cases entering
    · rcases (iterate_calls u c).2.2 with rejected | ⟨o, awaiting, _⟩
      · rw [rejected] at entering
        cases entering
      · rw [awaiting] at entering
        cases entering
    · rw [(leave_calls s c phase).1, update_self] at entering
      rcases ends with ⟨_, rfl⟩ | ⟨error, _, rfl⟩ <;> cases entering

theorem performs_lowers {c o : Nat} {s t : State K V} {a : Action K V} (wired : Wired s)
    (inTime : InTime s a) (performs : Performs (operationDuty s o) a) (next : step s a = some t) :
    t.load o < s.load o := by
  unfold operationDuty at performs
  cases a with
  | startOperation p =>
    split at performs
    · have same : p = o := performs
      subst p
      obtain ⟨ready, ⟨d, body, rfl⟩ | ⟨b, body, rfl⟩⟩ := startOperation_cases next
      · exact (serves_startJoin wired c ready body inTime).2
      · exact (serves_startExpire wired c ready body).2
    · split at performs <;> exact performs.elim
  | callbackReturns p outcome =>
    split at performs
    · exact performs.elim
    · split at performs
      · have same : p = o := performs
        subst p
        exact (serves_returned c next).2
      · exact performs.elim
  | continueOperation p =>
    split at performs
    · exact performs.elim
    · split at performs
      · exact performs.elim
      · have same : p = o := performs
        subst p
        exact (serves_continueOperation wired c next).2
  | _ =>
    split at performs
    · exact performs.elim
    · split at performs <;> exact performs.elim

theorem underway_enabled {c : Nat} {s : State K V} (h : Underway c s) (open' : ¬ Ended c s) :
    Transitions.Enabled step Performs s (duty c s) := by
  unfold duty
  cases phase : (s.calls c).phase with
  | awaiting o =>
    obtain ⟨lt, loaded⟩ := awaiting_loaded h.sound.wired h.made phase
    exact head_enabled h.sound.wired h.sound.phases lt loaded
  | entering =>
    refine ⟨.enter c, ?_⟩
    simp only [step, State.enter, h.made, phase, h.unblocked phase, and_self, ↓reduceIte]
    exact ⟨_, rfl, rfl⟩
  | resuming result =>
    refine ⟨.resume c, ?_⟩
    simp only [step, State.resume, h.made, phase, ↓reduceIte]
    cases result with
    | value joined => cases joined <;> exact ⟨_, rfl, rfl⟩
    | rejected error => exact ⟨_, rfl, rfl⟩
  | returned => exact absurd (Or.inl phase) open'
  | rejected error => exact absurd (Or.inr ⟨error, phase⟩) open'

noncomputable def rank (c : Nat) (s : State K V) : Nat ×ₗ Nat := toLex (passesLeft s c, backlog c s)

theorem rank_lower {c : Nat} {s t : State K V} (passes : passesLeft t c ≤ passesLeft s c)
    (shorter : passesLeft t c < passesLeft s c ∨ backlog c t < backlog c s) :
    rank c t < rank c s := by
  rw [rank, rank, Prod.Lex.toLex_lt_toLex]
  simp only
  omega

theorem rank_same {c : Nat} {s t : State K V} (passes : passesLeft t c = passesLeft s c)
    (backlogs : backlog c t = backlog c s) : rank c t = rank c s := by
  rw [rank, rank, passes, backlogs]

/- Every step ends the call, lowers its rank, or leaves both the rank and the duty;
   and a step of the last kind does not perform the duty. -/
theorem rank_step {c : Nat} {s t : State K V} {a : Action K V} (h : Underway c s)
    (open' : ¬ Ended c s) (inTime : InTime s a) (alone : Alone c s a) (next : step s a = some t) :
    Ended c t ∨ rank c t < rank c s ∨
      (rank c t = rank c s ∧ duty c t = duty c s ∧ ¬ Performs (duty c s) a) := by
  have wired := h.sound.wired
  have after := underway_step h inTime alone next
  rcases alone_step h.sound inTime alone next with ⟨notOwn, served⟩ | ⟨looping, u, uwired, unaborted,
    calls, left, rfl⟩ | ⟨phase, rfl, ends⟩
  · have passes := passesLeft_serves h.sound h.made served
    right
    rcases served.call with same | ⟨o, result, phase, moved, _⟩
    · by_cases fewer : passesLeft t c < passesLeft s c
      · exact Or.inl (rank_lower passes (Or.inl fewer))
      have equal : passesLeft t c = passesLeft s c := by omega
      cases phase : (s.calls c).phase with
      | awaiting o =>
        have tphase : (t.calls c).phase = .awaiting o := by rw [same, phase]
        obtain ⟨lt, sloaded⟩ := awaiting_loaded wired h.made phase
        obtain ⟨_, tloaded⟩ := awaiting_loaded after.sound.wired after.made tphase
        have sback : backlog c s = (o - head s o) * 4 + s.load (head s o) := by simp [backlog, phase]
        have tback : backlog c t = (o - head t o) * 4 + t.load (head t o) := by simp [backlog, tphase]
        rcases (backlog_serves served lt sloaded tloaded).2 with lower | ⟨heads, loads⟩
        · exact Or.inl (rank_lower passes (Or.inr (by omega)))
        · refine Or.inr ⟨rank_same equal (by rw [sback, tback, heads, loads]), ?_, ?_⟩
          · simp [duty, phase, tphase, operationDuty, heads, loads]
          · intro performs
            simp only [duty, phase] at performs
            have lowered := performs_lowers (c := c) wired inTime performs next
            omega
      | returned => exact absurd (Or.inl phase) open'
      | rejected error => exact absurd (Or.inr ⟨error, phase⟩) open'
      | entering =>
        refine Or.inr ⟨rank_same equal (by simp [backlog, same, phase]),
          by simp [duty, same, phase], ?_⟩
        intro performs
        simp only [duty, phase] at performs
        cases a with
        | enter d => exact notOwn performs
        | _ => exact performs
      | resuming result =>
        refine Or.inr ⟨rank_same equal (by simp [backlog, same, phase]),
          by simp [duty, same, phase], ?_⟩
        intro performs
        simp only [duty, phase] at performs
        cases a with
        | resume d => exact notOwn performs
        | _ => exact performs
    · obtain ⟨lt, loaded⟩ := awaiting_loaded wired h.made phase
      obtain ⟨_, unsettled, _⟩ := head_spec loaded
      refine Or.inl (rank_lower passes (Or.inr ?_))
      have tback : backlog c t = 0 := by simp [backlog, moved]
      have sback : backlog c s = (o - head s o) * 4 + s.load (head s o) := by simp [backlog, phase]
      omega
  · rw [← calls] at looping
    rcases passesLeft_iterate uwired unaborted looping with ⟨rejected, _⟩ | ⟨_, used⟩
    · exact Or.inl (Or.inr ⟨_, rejected⟩)
    · rw [left] at used
      exact Or.inr (Or.inl (rank_lower (by omega) (Or.inl (by omega))))
  · left
    have moved : ((s.leave c phase).calls c).phase = phase := by
      rw [(leave_calls s c phase).1, update_self]
    rcases ends with ⟨_, rfl⟩ | ⟨error, _, rfl⟩
    · exact Or.inl moved
    · exact Or.inr ⟨error, moved⟩

theorem underway_ends {c : Nat}
    (run : Transitions.Run step (fun (u : State K V) a => InTime u a ∧ Alone c u a))
    (fair : run.Fair Performs) (start : Underway c (run.state 0)) :
    ∃ n, Ended c (run.state n) := by
  refine Transitions.fair_reaches (Underway c) (Ended c) (rank c) (duty c) ?_ ?_ ?_ ?_ run fair start
  · intro s a t h _ admitted next
    exact Or.inr (underway_step h admitted.1 admitted.2 next)
  · intro s h open'
    exact underway_enabled h open'
  · intro s a t h open' admitted next performs
    rcases rank_step h open' admitted.1 admitted.2 next with ended | lower | ⟨_, _, idle⟩
    · exact Or.inl ended
    · exact Or.inr lower
    · exact absurd performs idle
  · intro s a t h open' admitted next
    rcases rank_step h open' admitted.1 admitted.2 next with ended | lower | ⟨same, kept, _⟩
    · exact Or.inl ended
    · exact Or.inr (Or.inl lower)
    · exact Or.inr (Or.inr ⟨same, kept⟩)

variable [Inhabited K] [Inhabited V]

/- The retry loop makes progress and deadline callbacks find values, in every run
   in time. A call that is left alone makes at most two more passes, and it ends in
   every fair run, with its value in one group or with an error; a call that is
   still parked behind a pending `stop` has not entered its loop. -/
theorem joinValue_progress :
    (∀ s : State K V, ReachableWith InTime s → ∀ later o i earlier,
      s.history = later ++ .deadlineStarted o i :: earlier → ∃ e ∈ earlier, e.AppendsTo i) ∧
    (∀ s : State K V, ReachableWith InTime s → ∀ c, c < s.nextCall → ∀ t,
      Transitions.Steps step (fun u a => InTime u a ∧ Alone c u a) s t →
      (t.calls c).iterations ≤ (s.calls c).iterations + 2) ∧
    ∀ c (run : Transitions.Run step (fun (u : State K V) a => InTime u a ∧ Alone c u a)),
      ReachableWith InTime (run.state 0) → c < (run.state 0).nextCall →
      (((run.state 0).calls c).phase = .entering → (run.state 0).stopCompletion = some true) →
      run.Fair Performs →
      ∃ n, (((run.state n).calls c).phase = .returned ∧ appendCount c (run.state n).history = 1) ∨
        ∃ error, ((run.state n).calls c).phase = .rejected error := by
  refine ⟨?_, ?_, ?_⟩
  · intro s reach later o i earlier split
    have filled := (sound_reachable reach).opened.filled
    rw [split] at filled
    exact filled_split filled
  · intro s reach c made t run
    obtain ⟨_, _, bound⟩ := passes_run (sound_reachable reach) made run
    have two := passesLeft_le_two s c
    omega
  · intro c run reach made unblocked fair
    have start : Underway c (run.state 0) := ⟨sound_reachable reach, made, unblocked⟩
    obtain ⟨n, ended⟩ := underway_ends run fair start
    refine ⟨n, ?_⟩
    obtain ⟨sound, known, _⟩ := passes_run start.sound made (run.steps n)
    rcases ended with returned | rejected
    · have owes := sound.balanced c known
      rw [returned] at owes
      exact Or.inl ⟨returned, owes⟩
    · exact Or.inr rejected

end Liveness

section Solo

/-- `soloJoin` after its first action; then the clock is read for ever. -/
def soloState (n : Nat) : State Nat Nat :=
  (Transitions.exec step (initial 0 false true 0 0 fun _ => false) (soloJoin.take (n + 1))).getD
    (initial 0 false true 0 0 fun _ => false)

def soloAction (n : Nat) : Action Nat Nat := soloJoin.getD (n + 1) (.clock 0 0)

theorem soloState_end (n : Nat) : soloState (n + 4) = soloState 4 := by
  have all : soloJoin.take (n + 4 + 1) = soloJoin.take 5 := by simp [soloJoin]
  simp [soloState, all]

theorem soloAction_end (n : Nat) : soloAction (n + 4) = .clock 0 0 := by
  simp [soloAction, soloJoin]

def soloRun : Transitions.Run step (fun (u : State Nat Nat) a => InTime u a ∧ Alone 0 u a) where
  state := soloState
  action := soloAction
  admitted := by
    intro n
    match n with
    | 0 =>
      refine ⟨?_, trivial⟩
      intro c body _
      cases body
      rfl
    | 1 => exact ⟨trivial, trivial⟩
    | 2 => exact ⟨trivial, trivial⟩
    | 3 =>
      refine ⟨?_, Or.inl rfl⟩
      intro phase
      cases phase
    | n + 4 =>
      rw [soloState_end, soloAction_end]
      exact ⟨le_refl 0, trivial⟩
  next := by
    intro n
    match n with
    | 0 => rfl
    | 1 => rfl
    | 2 => rfl
    | 3 => rfl
    | n + 4 =>
      rw [soloState_end, soloAction_end, show n + 4 + 1 = (n + 1) + 4 by omega, soloState_end]
      rfl

theorem solo_nothing_enabled (d : Duty) : ¬ Transitions.Enabled step Performs (soloState 4) d := by
  rintro ⟨a, t, performs, next⟩
  have chain : (soloState 4).chain.next = 1 ∧ (soloState 4).chain.status 0 = .settled ∧
      (soloState 4).nextCall = 1 ∧ ((soloState 4).calls 0).phase = .returned := ⟨rfl, rfl, rfl, rfl⟩
  obtain ⟨operations, settled, calls, returned⟩ := chain
  have status : ∀ o, o < (soloState 4).chain.next → (soloState 4).chain.status o = .settled := by
    intro o lt
    have only : o = 0 := by omega
    rw [only, settled]
  have phase : ∀ c, c < (soloState 4).nextCall → ((soloState 4).calls c).phase = .returned := by
    intro c lt
    have only : c = 0 := by omega
    rw [only, returned]
  cases a with
  | startOperation o =>
    obtain ⟨ready, _⟩ := startOperation_cases next
    obtain ⟨lt, waiting, _⟩ := (Chain.ready_iff _ _).mp ready
    rw [status o lt] at waiting
    cases waiting
  | callbackReturns o outcome =>
    obtain ⟨lt, running, _⟩ := callbackReturns_cases next
    rw [status o lt] at running
    cases running
  | continueOperation o =>
    obtain ⟨lt, running, _⟩ := continueOperation_cases next
    rw [status o lt] at running
    cases running
  | enter c =>
    obtain ⟨lt, entering, _⟩ := enter_cases next
    rw [phase c lt] at entering
    cases entering
  | resume c =>
    obtain ⟨lt, ⟨resuming, _⟩ | ⟨resuming, _⟩ | ⟨_, resuming, _⟩⟩ := resume_cases next <;>
    · rw [phase c lt] at resuming
      cases resuming
  | _ => cases d <;> exact performs

theorem solo_fair : soloRun.Fair Performs := by
  intro d n enabled
  have last := enabled (n + 4) (by omega)
  have same : soloRun.state (n + 4) = soloState 4 := soloState_end n
  rw [same] at last
  exact absurd last (solo_nothing_enabled d)

theorem joinValue_progress_solo :
    ∃ n, (((soloState n).calls 0).phase = .returned ∧ appendCount 0 (soloState n).history = 1) ∨
      ∃ error, ((soloState n).calls 0).phase = .rejected error := by
  have joins : InTime (initial 0 false true 0 0 fun _ => false)
      (.joinValue ⟨0, none⟩ 3 (.finite 1) 7 : Action Nat Nat) := by
    intro _ _ limited
    exact absurd limited (by decide)
  have reach : ReachableWith InTime (soloState 0) :=
    ⟨_, ⟨0, false, true, 0, 0, fun _ => false, rfl⟩, Transitions.steps_single joins rfl⟩
  exact joinValue_progress.2.2 0 soloRun reach (by decide) (fun entering => by cases entering) solo_fair

end Solo

section Spin
variable {K V : Type} [DecidableEq K]

/- A call between two passes whose context has a deadline and is already aborted,
   while nothing is stored for its key. -/
structure Spinning (c : Nat) (s : State K V) : Prop where
  wired : Wired s
  made : c < s.nextCall
  phase : (s.calls c).phase = .resuming (.value false)
  absent : s.current.get (s.calls c).key = none ∧ s.previous.get (s.calls c).key = none
  limited : 0 < (s.calls c).ttl
  given : (s.calls c).context.deadline.isSome = true
  aborted : s.aborted (s.calls c).context.signal = true
  small : (s.calls c).index < maxArrayLength

/-- Its next pass creates a group and queues the expiry ahead of the join operation. -/
theorem spin_created {c : Nat} {s : State K V} (h : Spinning c s) :
    ∃ t, step s (.resume c) = some t ∧ t.chain = (s.chain.attach s.nextItem).attach s.nextItem ∧
      t.operations = update (update s.operations s.chain.next ⟨.expire s.nextArm, .idle⟩)
        (s.chain.next + 1) ⟨.join c, .idle⟩ ∧
      (t.items s.nextItem).processed = false ∧
      (t.arms s.nextArm).context = (s.calls c).context ∧ (t.arms s.nextArm).key = (s.calls c).key ∧
      t.current.get (s.calls c).key = some s.nextItem ∧ t.previous.get (s.calls c).key = none ∧
      t.calls c = { s.calls c with
        phase := .awaiting (s.chain.next + 1), iterations := (s.calls c).iterations + 1 } ∧
      t.nextCall = s.nextCall ∧ t.aborted = s.aborted := by
  have missing : s.findLive (s.calls c).key = none := by
    simp [State.findLive, h.absent.1, h.absent.2]
  have fits : ¬ maxArrayLength < (s.calls c).index + 1 := by
    have bound := h.small
    omega
  have created : s.createItem c = ((s.insertItem c).register (s.calls c).context (s.calls c).key
      s.nextItem).expire s.nextArm := by
    simp [State.createItem, h.limited, State.armDeadline, h.given, State.insertItem, h.aborted]
  have iterated : step s (.resume c) = some ((s.createItem c).joinItem c s.nextItem) := by
    simp [step, State.resume, h.made, h.phase, State.iterate, missing, fits]
  refine ⟨_, iterated, ?_⟩
  rw [created]
  simp [State.expire, State.register, State.insertItem, State.newItem, State.joinItem, State.enqueue,
    State.cancelDeadline, State.cancelledArms, Chain.attach]

theorem spin_tail {c : Nat} {s : State K V} (h : Spinning c s) : s.chain.tail s.nextItem = none := by
  cases tail : s.chain.tail s.nextItem with
  | none => rfl
  | some o =>
    obtain ⟨lt, lane⟩ := h.wired.chain.tail_last tail
    have old := h.wired.lane_item lt
    omega


/- The expiry runs first, on an empty group, and takes the group out of the map. -/
theorem spin_expired {c : Nat} {s t : State K V} (h : Spinning c s)
    (chain : t.chain = (s.chain.attach s.nextItem).attach s.nextItem)
    (operations : t.operations = update (update s.operations s.chain.next
      ⟨.expire s.nextArm, .idle⟩) (s.chain.next + 1) ⟨.join c, .idle⟩)
    (unprocessed : (t.items s.nextItem).processed = false)
    (context : (t.arms s.nextArm).context = (s.calls c).context)
    (key : (t.arms s.nextArm).key = (s.calls c).key)
    (current : t.current.get (s.calls c).key = some s.nextItem) :
    ∃ u, Transitions.Steps step (Alone c) t u ∧
      u.chain = (t.chain.start s.chain.next).settle s.chain.next ∧
      (u.operations (s.chain.next + 1)) = ⟨.join c, .idle⟩ ∧
      (u.items s.nextItem).processed = true ∧ u.current.get (s.calls c).key = none ∧
      u.previous = t.previous ∧ u.calls = t.calls ∧ u.nextCall = t.nextCall ∧
      u.aborted = t.aborted := by
  have order : s.chain.next < s.chain.next + 1 + 1 := by omega
  have second : step t (.startOperation s.chain.next) =
      some (t.enterDeadline s.chain.next s.nextItem) := by
    have ready : t.chain.ready s.chain.next = true := by
      simp [Chain.ready, chain, Chain.attach, spin_tail h, order]
    have late : t.wakesEarly s.nextArm s.nextItem = false := by
      simp [State.wakesEarly, context, Option.isSome_iff_ne_none.mp h.given]
    have lane : t.chain.lane s.chain.next = s.nextItem := by simp [chain, Chain.attach]
    simp [step, State.startOperation, ready, operations, lane, State.startExpire, unprocessed, late]
  have third : step (t.enterDeadline s.chain.next s.nextItem)
      (.callbackReturns s.chain.next (.returned false)) =
      some (((t.enterDeadline s.chain.next s.nextItem).setStage s.chain.next
        (.returned (.returned false))).record
          (.deadlineReturned s.chain.next s.nextItem (.returned false))) := by
    simp [step, State.callbackReturns, State.enterDeadline, State.record, State.setStage,
      State.setProcessed, State.setItem, State.begin, Chain.start, chain, Chain.attach, operations,
      order]
  have fourth : step (((t.enterDeadline s.chain.next s.nextItem).setStage s.chain.next
        (.returned (.returned false))).record
          (.deadlineReturned s.chain.next s.nextItem (.returned false)))
      (.continueOperation s.chain.next) =
      some ((((t.enterDeadline s.chain.next s.nextItem).setStage s.chain.next
        (.returned (.returned false))).record
          (.deadlineReturned s.chain.next s.nextItem (.returned false))).continueExpire s.chain.next
            s.nextArm s.nextItem) := by
    simp [step, State.continueOperation, State.enterDeadline, State.record, State.setStage,
      State.setProcessed, State.setItem, State.begin, Chain.start, chain, Chain.attach, operations,
      order]
  have alone₂ : Alone c t (.startOperation s.chain.next) := trivial
  have alone₃ : Alone c (t.enterDeadline s.chain.next s.nextItem)
      (.callbackReturns s.chain.next (.returned false)) := trivial
  have run := Transitions.steps_trans (Transitions.steps_single alone₂ second)
    (Transitions.steps_single alone₃ third)
  refine ⟨_, .tail run (a := .continueOperation s.chain.next) trivial fourth, ?_⟩
  simp [State.continueExpire, State.concludeExpire, State.locate, State.enterDeadline, State.record,
    State.setStage, State.setProcessed, State.setItem, State.begin, key, current, State.removeAt,
    State.generation, State.settle, operations]

/-- Then it finds its group processed, and is where it was. -/
theorem spin_cycle {c : Nat} {s : State K V} (h : Spinning c s) :
    ∃ t, Transitions.Steps step (Alone c) s t ∧ Spinning c t ∧
      (t.calls c).iterations = (s.calls c).iterations + 1 := by
  obtain ⟨t, first, chain, operations, unprocessed, context, key, current, previous, calls, nextCall,
    aborted⟩ := spin_created h
  obtain ⟨u, middle, uchain, ubody, processed, gone, uprevious, ucalls, unextCall, uaborted⟩ :=
    spin_expired h chain operations unprocessed context key current
  have last : step u (.startOperation (s.chain.next + 1)) =
      some ((u.begin (s.chain.next + 1)).settleJoin (s.chain.next + 1) c (.value false)) := by
    have ready : u.chain.ready (s.chain.next + 1) = true := by
      simp [Chain.ready, uchain, chain, Chain.attach, Chain.start, Chain.settle]
    have lane : u.chain.lane (s.chain.next + 1) = s.nextItem := by
      simp [uchain, chain, Chain.attach, Chain.start, Chain.settle]
    simp [step, State.startOperation, ready, ubody, lane, State.startJoin, State.refuses, processed]
  have alone : Alone c s (.resume c) := Or.inl rfl
  have run : Transitions.Steps step (Alone c) s
      ((u.begin (s.chain.next + 1)).settleJoin (s.chain.next + 1) c (.value false)) :=
    .tail (a := .startOperation (s.chain.next + 1))
      (Transitions.steps_trans (Transitions.steps_single alone first) middle) trivial last
  have wired := Transitions.steps_invariant Wired (fun _ _ _ w _ n => wired_step w n) run h.wired
  have record : ((u.begin (s.chain.next + 1)).settleJoin (s.chain.next + 1) c
      (.value false)).calls c = { s.calls c with
        phase := .resuming (.value false), iterations := (s.calls c).iterations + 1 } := by
    rw [settleJoin_call]
    simp [State.begin, ucalls, calls]
  refine ⟨_, run, ⟨wired, ?_, ?_, ?_, ?_, ?_, ?_, ?_⟩, ?_⟩
  · simpa [State.settleJoin, State.settle, State.setPhase, State.begin, unextCall, nextCall]
      using h.made
  · rw [record]
  · rw [record]
    simpa [State.settleJoin, State.settle, State.setPhase, State.begin, uprevious]
      using ⟨gone, previous⟩
  · rw [record]
    exact h.limited
  · rw [record]
    exact h.given
  · rw [record]
    simpa [State.settleJoin, State.settle, State.setPhase, State.begin, uaborted, aborted]
      using h.aborted
  · rw [record]
    exact h.small
  · rw [record]

theorem spins_for_ever {c : Nat} {s : State K V} (h : Spinning c s) (n : Nat) :
    ∃ t, Transitions.Steps step (Alone c) s t ∧ Spinning c t ∧
      (t.calls c).iterations = (s.calls c).iterations + n := by
  induction n with
  | zero => exact ⟨s, .refl s, h, rfl⟩
  | succ n ih =>
    obtain ⟨t, run, spinning, passes⟩ := ih
    obtain ⟨u, cycle, again, one⟩ := spin_cycle spinning
    exact ⟨u, Transitions.steps_trans run cycle, again, by omega⟩

/-- A call under a context that is aborted with time left on its deadline. -/
def abortedJoin : List (Action Nat Nat) :=
  [.joinValue ⟨0, some 1000⟩ 3 (.finite 1) 7, .startOperation 0, .callbackReturns 0 (.returned false),
    .continueOperation 0, .startOperation 1]

/- Its deadline callback runs on a group without a value, and left alone the call
   makes any number of passes without settling. -/
theorem aborted_call_spins :
    ∃ s : State Nat Nat, Reachable s ∧
      (∃ later o i earlier, s.history = later ++ .deadlineStarted o i :: earlier ∧
        ¬ ∃ e ∈ earlier, e.AppendsTo i) ∧
      ∀ n, ∃ t, Transitions.Steps step (Alone 0) s t ∧ n ≤ (t.calls 0).iterations ∧ ¬ Ended 0 t := by
  obtain ⟨s, run, history, made, phase, current, previous, key, ttl, given, aborted, index⟩ :
      ∃ s : State Nat Nat, Transitions.exec step (initial 0 false true 0 0 fun _ => true)
        abortedJoin = some s ∧
        s.history = [.deadlineReturned 0 0 (.returned false), .deadlineStarted 0 0] ∧
        0 < s.nextCall ∧ (s.calls 0).phase = .resuming (.value false) ∧ s.current.get 3 = none ∧
        s.previous.get 3 = none ∧ (s.calls 0).key = 3 ∧ 0 < (s.calls 0).ttl ∧
        (s.calls 0).context.deadline.isSome = true ∧
        s.aborted (s.calls 0).context.signal = true ∧ (s.calls 0).index = 1 :=
    ⟨_, rfl, rfl, by decide, rfl, rfl, rfl, rfl, by decide, rfl, rfl, rfl⟩
  have reach := reachable_exec run
  have spinning : Spinning 0 s := ⟨(groups_reachable reach).1, made, phase,
    ⟨by rw [key, current], by rw [key, previous]⟩, ttl, given, aborted, by rw [index]; decide⟩
  refine ⟨s, reach, ⟨[.deadlineReturned 0 0 (.returned false)], 0, 0, [], by rw [history]; rfl,
    by simp⟩, ?_⟩
  intro n
  obtain ⟨t, passes, again, count⟩ := spins_for_ever spinning n
  refine ⟨t, passes, by omega, ?_⟩
  rintro (returned | ⟨error, rejected⟩)
  · rw [again.phase] at returned
    cases returned
  · rw [again.phase] at rejected
    cases rejected

end Spin

end JoinStorage
