import TsServiceLib.Workflow.PoolAgreement
import TsServiceLib.Pool.PoolLaw

/-!
The idle promise of a workflow pool. It is replaced when a task enters an empty
pool and resolved when the pump finds the pool empty again, so the promise that
is current is open exactly while the pool is busy, and no earlier one is left
open. That a pool which is not running has no active task is known of the live
pool it agrees with.
-/
namespace WorkflowPools
open Pools Transitions Numbers

/-- The pool `w` is reached from a newly made one. -/
def Reached (w : WorkflowPool) : Prop :=
  ∃ name executors priority first, make name executors priority = .ok first ∧ Steps step Any first w

/-- Some task is queued or active. -/
def WorkflowPool.busy (w : WorkflowPool) : Prop := w.active ≠ 0 ∨ 0 < w.queue.length

/-- What holds of the promises at every turn of the pump. -/
structure Promised (w : WorkflowPool) : Prop where
  made : w.idle < w.promises
  earlier : ∀ promise < w.promises, promise ≠ w.idle → w.resolved promise = true
  resolver : ∀ promise, w.resolveIdle = some promise → promise = w.idle
  unresolved : w.resolved w.idle = false ↔ w.resolveIdle ≠ none
  unmade : ∀ promise, w.promises ≤ promise → w.resolved promise = false
  busy : w.busy → w.resolveIdle ≠ none

/-- Between operations an idle pool has resolved its promise. -/
def Settled (w : WorkflowPool) : Prop := w.resolveIdle ≠ none → w.busy

section Lengths

theorem fifo_moveToFront_nodes (q : FifoQueue Nat) (task : Nat) : (q.moveToFront task).2.nodes = q.nodes := by
  unfold FifoQueue.moveToFront
  split
  · rfl
  · split
    · rfl
    · split <;> rfl

theorem promote_length (q : WorkflowQueue) (task : Nat) : (q.promote task).length = q.length := by
  unfold WorkflowQueue.promote WorkflowQueue.length
  cases entries : q.entries with
  | fifo queue => simp only [FifoQueue.length, fifo_moveToFront_nodes]
  | heap queue =>
    by_cases present : queue.has task = true
    · simp only [present, if_true, IndexedHeap.length, IndexedHeap.fix_length]
    · simp [present, entries]

theorem push_length (q : WorkflowQueue) (task : Nat) : 0 < (q.push task).length := by
  unfold WorkflowQueue.push WorkflowQueue.length
  cases q.entries with
  | fifo queue =>
    simp only [FifoQueue.length, FifoQueue.push, OrderedMaps.OrderedMap.size_set]
    split
    · rename_i present
      have positive := List.length_pos_of_mem ((OrderedMaps.OrderedMap.has_mem ..).mp present)
      rw [List.length_map] at positive
      exact positive
    · omega
  | heap queue =>
    simp only [IndexedHeap.length, IndexedHeap.push, IndexedHeap.up_length, IndexedHeap.append, List.length_append,
      List.length_singleton]
    omega

end Lengths

inductive Move (w : WorkflowPool) : Action → WorkflowPool → Prop where
  /-- An operation that threw. -/
  | unchanged (a : Action) : Move w a w
  | start (created : w.state = .created) : Move w .start (pump { w with state := .running })
  | accept (signal : Nat) (priority : Number) (live : signal ∉ w.aborted)
      (opened : ¬(w.state = .stopping ∨ w.state = .stopped)) :
      Move w (.addTask signal false priority) (pump { renewIdle w with
        submissions := (renewIdle w).submissions ++ [⟨signal, priority⟩]
        listeners := Function.update (renewIdle w).listeners signal
          ((renewIdle w).listeners signal ++ [(renewIdle w).submissions.length])
        queue := ((renewIdle w).queue.create (renewIdle w).submissions.length priority).push
          (renewIdle w).submissions.length })
  | abort (signal : Nat) (live : signal ∉ w.aborted) : Move w (.abort signal) (abort w signal)
  | advance (a : Action) (task : Nat) (stage : Stage) (active : (w.stage task).isActive = true)
      (still : stage.isActive = true) : Move w a (toStage w task stage)
  | finish (a : Action) (task : Nat) (active : (w.stage task).isActive = true) : Move w a (taskFinished w task)
  | stop : Move w .stop (stop w)

section Moves
variable {w : WorkflowPool}

theorem addTask_move (signal : Nat) (expired : Bool) (priority : Number) :
    Move w (.addTask signal expired priority) (orUnchanged w (addTask w signal expired priority)) := by
  have renewed : (renewIdle w).aborted = w.aborted := by
    unfold renewIdle
    split <;> rfl
  unfold addTask
  split
  · exact .unchanged _
  · rename_i usable
    split
    · exact .unchanged _
    · rename_i opened
      have live : signal ∉ w.aborted := fun fired => usable (.inl fired)
      have current : expired = false := by
        cases expired with
        | false => trivial
        | true => exact absurd (.inr rfl) usable
      subst current
      have unfired : signal ∉ (renewIdle w).aborted := renewed ▸ live
      simp only [subscribeAbort, unfired, if_false]
      exact .accept signal priority live opened

theorem step_move {v : WorkflowPool} {a : Action} (next : step w a = some v) : Move w a v := by
  have active : ∀ {task : Nat} {stage : Stage}, w.stage task = stage → stage.isActive = true →
      (w.stage task).isActive = true := by
    intro task stage here still
    rw [here]
    exact still
  cases a with
  | start =>
    cases next
    unfold start
    split
    · rename_i created
      exact .start created
    · exact .unchanged _
  | addTask signal expired priority =>
    cases next
    exact addTask_move signal expired priority
  | abort signal =>
    simp only [step] at next
    split at next
    · cases next
    · rename_i live
      cases next
      exact .abort signal live
  | run task =>
    simp only [step] at next
    split at next
    · rename_i scheduled
      cases next
      exact .advance _ task .executing (active scheduled rfl) rfl
    · cases next
  | throws task =>
    simp only [step] at next
    split at next
    · rename_i executing
      cases next
      exact .advance _ task .reporting (active executing rfl) rfl
    · cases next
  | returns task =>
    simp only [step] at next
    split at next
    · rename_i executing
      cases next
      exact .advance _ task .awaiting (active executing rfl) rfl
    · cases next
  | settles task rejected =>
    simp only [step] at next
    split at next
    · rename_i awaiting
      cases rejected with
      | false =>
        cases next
        exact .finish _ task (active awaiting rfl)
      | true =>
        cases next
        exact .advance _ task .reporting (active awaiting rfl) rfl
    · cases next
  | reporterEnds task threw =>
    simp only [step] at next
    split at next
    · rename_i reporting
      cases next
      exact .finish _ task (active reporting rfl)
    · cases next
  | stop =>
    cases next
    exact .stop

theorem startNext_some {v : WorkflowPool} (next : startNext w = some v) :
    0 < w.queue.length ∧ ∃ task rest, v = dispatch w task rest := by
  unfold startNext at next
  split at next
  · rename_i room
    split at next
    · cases next
    · rename_i task rest _
      cases next
      exact ⟨room.2, task, rest, rfl⟩
  · cases next

theorem pump_rule (Inv : WorkflowPool → Prop) (turn : ∀ w v, Inv w → startNext w = some v → Inv v)
    (finish : ∀ w, Inv w → Inv (finishDrainIfIdle w)) (held : Inv w) : Inv (pump w) := by
  have loop : ∀ turns w, Inv w → Inv (pumpLoop turns w) := by
    intro turns
    induction turns with
    | zero => exact fun _ held => held
    | succ turns ih =>
      intro w held
      unfold pumpLoop
      split
      · exact held
      · rename_i v next
        exact ih v (turn w v held next)
  unfold pump
  split
  · exact finish _ (loop _ w held)
  · exact held

/-- The rule for an abort: what the abort callback keeps, the listener keeps. -/
theorem notify_rule (Inv : WorkflowPool → Prop) (kept : ∀ w task, Inv w → Inv (cancel w task)) (signal : Nat)
    (tasks : List Nat) (held : Inv w) : Inv (tasks.foldl (notify signal) w) := by
  induction tasks generalizing w with
  | nil => exact held
  | cons task rest ih =>
    apply ih
    unfold notify
    split
    · exact kept w task held
    · exact held

end Moves

section Promises
variable {w : WorkflowPool}

theorem make_promised {name : String} {executors : Number} {priority : Bool}
    (made : make name executors priority = .ok w) : Promised w ∧ Settled w := by
  have fresh : ¬({ name, executors := w.executors, queue := .make priority } : WorkflowPool).busy := by
    cases priority <;> simp [WorkflowPool.busy, WorkflowQueue.length, WorkflowQueue.make, IndexedHeap.length,
      IndexedHeap.empty, FifoQueue.length, FifoQueue.empty, OrderedMaps.OrderedMap.size, OrderedMaps.OrderedMap.empty]
  unfold make at made
  split at made
  · split at made
    · cases made
    · cases made
      refine ⟨⟨?_, ?_, ?_, ?_, ?_, fun busy => absurd busy fresh⟩, fun opened => absurd rfl opened⟩
      · simp
      · intro promise inside other
        simp only at inside other
        omega
      · simp
      · simp
      · intro promise outside
        simp only at outside
        simp only [beq_eq_false_iff_ne]
        omega
  · cases made

theorem dispatch_promised (promised : Promised w) (queued : 0 < w.queue.length) (task : Nat) (rest : WorkflowQueue) :
    Promised (dispatch w task rest) :=
  { promised with busy := fun _ => promised.busy (.inr queued) }

theorem settleIdle_promised (promised : Promised w) (idle : ¬w.busy) :
    Promised (settleIdle w) ∧ (settleIdle w).resolveIdle = none := by
  unfold settleIdle
  split
  · rename_i none
    exact ⟨promised, none⟩
  · rename_i promise opened
    have current := promised.resolver promise opened
    subst current
    refine ⟨⟨promised.made, ?_, nofun, ?_, ?_, fun busy => absurd busy idle⟩, rfl⟩
    · intro other inside different
      simp only [Function.update_of_ne different]
      exact promised.earlier other inside different
    · simp
    · intro other outside
      have different : other ≠ w.idle := Nat.ne_of_gt (Nat.lt_of_lt_of_le promised.made outside)
      simp only [Function.update_of_ne different]
      exact promised.unmade other outside

theorem finishDrain_promised (promised : Promised w) : Promised (finishDrainIfIdle w) := by
  unfold finishDrainIfIdle
  split
  · rename_i vacant
    have idle : ¬w.busy := by
      unfold WorkflowPool.busy
      omega
    have settled := (settleIdle_promised promised idle).1
    simp only
    split
    · exact { settled with }
    · exact settled
  · exact promised

theorem finishDrain_settled (promised : Promised w) : Settled (finishDrainIfIdle w) := by
  unfold finishDrainIfIdle
  split
  · rename_i vacant
    have idle : ¬w.busy := by
      unfold WorkflowPool.busy
      omega
    have none := (settleIdle_promised promised idle).2
    simp only
    split
    · exact fun opened => absurd none opened
    · exact fun opened => absurd none opened
  · rename_i occupied
    intro _
    unfold WorkflowPool.busy
    omega

theorem pumpLoop_promised (turns : Nat) (promised : Promised w) : Promised (pumpLoop turns w) := by
  induction turns generalizing w with
  | zero => exact promised
  | succ turns ih =>
    unfold pumpLoop
    split
    · exact promised
    · rename_i v next
      obtain ⟨queued, task, rest, rfl⟩ := startNext_some next
      exact ih (dispatch_promised promised queued task rest)

theorem pump_promised (promised : Promised w) (moves : w.state = .running ∨ w.state = .stopping ∨ Settled w) :
    Promised (pump w) ∧ Settled (pump w) := by
  have looped := pumpLoop_promised w.queue.length promised
  unfold pump
  split
  · exact ⟨finishDrain_promised looped, finishDrain_settled looped⟩
  · rename_i still
    refine ⟨promised, ?_⟩
    rcases moves with running | stopping | settled
    · exact absurd (.inl running) still
    · exact absurd (.inr stopping) still
    · exact settled

theorem cancel_promised (promised : Promised w) (settled : Settled w) (task : Nat) :
    Promised (cancel w task) ∧ Settled (cancel w task) := by
  have busy : ∀ {v : WorkflowPool}, v = { w with queue := w.queue.promote task } → (v.busy ↔ w.busy) := by
    intro v same
    subst same
    simp only [WorkflowPool.busy, promote_length]
  apply pump_promised
  · exact { promised with busy := fun held => promised.busy ((busy rfl).mp held) }
  · exact .inr (.inr fun opened => (busy rfl).mpr (settled opened))

/-- A new promise is made only when the old one has been resolved. -/
theorem renewIdle_promised (promised : Promised w) (settled : Settled w) :
    Promised (renewIdle w) ∧ (renewIdle w).resolveIdle ≠ none := by
  unfold renewIdle
  split
  · rename_i vacant
    have idle : ¬w.busy := by
      unfold WorkflowPool.busy
      omega
    have closed : w.resolveIdle = none := by
      by_contra opened
      exact idle (settled opened)
    have old : w.resolved w.idle = true := by
      cases found : w.resolved w.idle with
      | true => rfl
      | false => exact absurd closed (promised.unresolved.mp found)
    refine ⟨⟨?_, ?_, ?_, ?_, ?_, fun _ => by simp⟩, by simp⟩
    · exact Nat.lt_succ_self _
    · intro promise inside different
      simp only at inside different ⊢
      rcases eq_or_ne promise w.idle with same | other
      · rw [same, old]
      · exact promised.earlier promise (by omega) other
    · intro promise opened
      cases opened
      rfl
    · simp [promised.unmade w.promises (Nat.le_refl _)]
    · intro promise outside
      simp only at outside
      exact promised.unmade promise (by omega)
  · rename_i occupied
    refine ⟨promised, promised.busy ?_⟩
    unfold WorkflowPool.busy
    omega

theorem abort_promised (promised : Promised w) (settled : Settled w) (signal : Nat) :
    Promised (abort w signal) ∧ Settled (abort w signal) := by
  have fired : Promised { w with aborted := signal :: w.aborted } := { promised with }
  obtain ⟨kept, rests⟩ := notify_rule (fun w => Promised w ∧ Settled w)
    (fun _ task held => cancel_promised held.1 held.2 task) signal (w.listeners signal) ⟨fired, settled⟩
  exact ⟨{ kept with }, rests⟩

theorem accept_promised (promised : Promised w) (settled : Settled w) (signal : Nat) (priority : Number) :
    Promised (pump { renewIdle w with
      submissions := (renewIdle w).submissions ++ [⟨signal, priority⟩]
      listeners := Function.update (renewIdle w).listeners signal
        ((renewIdle w).listeners signal ++ [(renewIdle w).submissions.length])
      queue := ((renewIdle w).queue.create (renewIdle w).submissions.length priority).push
        (renewIdle w).submissions.length }) ∧
    Settled (pump { renewIdle w with
      submissions := (renewIdle w).submissions ++ [⟨signal, priority⟩]
      listeners := Function.update (renewIdle w).listeners signal
        ((renewIdle w).listeners signal ++ [(renewIdle w).submissions.length])
      queue := ((renewIdle w).queue.create (renewIdle w).submissions.length priority).push
        (renewIdle w).submissions.length }) := by
  obtain ⟨renewed, opened⟩ := renewIdle_promised promised settled
  apply pump_promised
  · exact { renewed with busy := fun _ => opened }
  · exact .inr (.inr fun _ => .inr (push_length _ _))

/-- What an active task says about its pool. -/
structure Accounted (w : WorkflowPool) : Prop where
  moving : ∀ task, (w.stage task).isActive = true → w.state = .running ∨ w.state = .stopping
  counted : ∀ task, (w.stage task).isActive = true → w.active ≠ 0
  idle : w.state = .stopped → ¬w.busy

theorem move_promised (accounted : Accounted w) (promised : Promised w) (settled : Settled w) {v : WorkflowPool}
    {a : Action} (move : Move w a v) : Promised v ∧ Settled v := by
  cases move with
  | unchanged a => exact ⟨promised, settled⟩
  | start created => exact pump_promised { promised with } (.inl rfl)
  | accept signal priority live opened => exact accept_promised promised settled signal priority
  | abort signal live => exact abort_promised promised settled signal
  | advance a task stage active still => exact ⟨{ promised with }, settled⟩
  | finish a task active =>
    have fewer : Promised { w with active := w.active - 1, stage := Function.update w.stage task .finished } := by
      refine { promised with busy := ?_ }
      intro busy
      apply promised.busy
      rcases busy with working | queued
      · simp only at working
        exact .inl (by omega)
      · exact .inr queued
    rcases accounted.moving task active with running | stopping
    · exact pump_promised fewer (.inl running)
    · exact pump_promised fewer (.inr (.inl stopping))
  | stop =>
    unfold stop
    split
    · exact ⟨promised, settled⟩
    · split
      · have begun : Promised { w with state := .stopping, drain := .pending } := { promised with }
        have pumped := (pump_promised begun (.inr (.inl rfl))).1
        exact ⟨finishDrain_promised pumped, finishDrain_settled pumped⟩
      · exact ⟨promised, settled⟩

end Promises

/-- A pool that has not been started has started no task. -/
def Unstarted (w : WorkflowPool) : Prop := w.state = .created → w.starts = []

section Starts
variable {w : WorkflowPool}

theorem pump_begun (begun : w.state ≠ .created) : (pump w).state ≠ .created := by
  apply pump_rule (fun w => w.state ≠ .created) _ _ begun
  · intro w v held next
    obtain ⟨_, task, rest, rfl⟩ := startNext_some next
    exact held
  · intro w held
    have settled : (settleIdle w).state = w.state := by
      unfold settleIdle
      split <;> rfl
    unfold finishDrainIfIdle
    split
    · simp only
      split
      · nofun
      · rw [settled]
        exact held
    · exact held

theorem pump_unstarted (unstarted : Unstarted w) : Unstarted (pump w) := by
  intro created
  by_cases begun : w.state = .created
  · have same : pump w = w := by simp [pump, begun]
    rw [same]
    exact unstarted begun
  · exact absurd created (pump_begun begun)

theorem move_unstarted (unstarted : Unstarted w) {v : WorkflowPool} {a : Action} (move : Move w a v) :
    Unstarted v := by
  cases move with
  | unchanged a => exact unstarted
  | start created => exact pump_unstarted nofun
  | accept signal priority live opened =>
    apply pump_unstarted
    have same : (renewIdle w).state = w.state ∧ (renewIdle w).starts = w.starts := by
      unfold renewIdle
      split <;> exact ⟨rfl, rfl⟩
    intro created
    exact same.2.trans (unstarted (same.1.symm.trans created))
  | abort signal live =>
    have fired : Unstarted { w with aborted := signal :: w.aborted } := unstarted
    exact notify_rule Unstarted (fun _ _ held => pump_unstarted held) signal _ fired
  | advance a task stage active still => exact unstarted
  | finish a task active => exact pump_unstarted unstarted
  | stop =>
    unfold stop
    split
    · exact unstarted
    · split
      · have begun : (pump { w with state := .stopping, drain := .pending }).state ≠ .created := pump_begun nofun
        intro created
        unfold finishDrainIfIdle at created
        split at created
        · simp only at created
          have settled : ∀ w : WorkflowPool, (settleIdle w).state = w.state := by
            intro w
            unfold settleIdle
            split <;> rfl
          split at created
          · cases created
          · exact absurd ((settled _).symm.trans created) begun
        · exact absurd created begun
      · exact unstarted

theorem pump_promises (w : WorkflowPool) : (pump w).promises = w.promises := by
  apply pump_rule (fun v => v.promises = w.promises) _ _ rfl
  · intro v u held next
    obtain ⟨_, task, rest, rfl⟩ := startNext_some next
    exact held
  · intro v held
    have settled : (settleIdle v).promises = v.promises := by
      unfold settleIdle
      split <;> rfl
    unfold finishDrainIfIdle
    split
    · simp only
      split <;> exact settled.trans held
    · exact held

theorem pump_stopped (stopped : w.state = .stopped) : pump w = w := by simp [pump, stopped]

theorem move_promises {v : WorkflowPool} {a : Action} (move : Move w a v) : w.promises ≤ v.promises := by
  cases move with
  | unchanged a => exact Nat.le_refl _
  | start created => rw [pump_promises]
  | accept signal priority live opened =>
    have renewed : w.promises ≤ (renewIdle w).promises := by
      unfold renewIdle
      split
      · exact Nat.le_succ _
      · exact Nat.le_refl _
    rw [pump_promises]
    exact renewed
  | abort signal live =>
    exact notify_rule (fun v => w.promises ≤ v.promises)
      (fun _ _ held => by rw [cancel, pump_promises]; exact held) signal _ (Nat.le_refl _)
  | advance a task stage active still => exact Nat.le_refl _
  | finish a task active => rw [taskFinished, pump_promises]
  | stop =>
    unfold stop
    split
    · exact Nat.le_refl _
    · split
      · have settled : ∀ v : WorkflowPool, (finishDrainIfIdle v).promises = v.promises := by
          intro v
          unfold finishDrainIfIdle settleIdle
          split
          · split <;> simp only <;> split <;> rfl
          · rfl
        rw [settled, pump_promises]
      · exact Nat.le_refl _

theorem move_stopped (accounted : Accounted w) (stopped : w.state = .stopped) {v : WorkflowPool} {a : Action}
    (move : Move w a v) : v.state = .stopped := by
  cases move with
  | unchanged a => exact stopped
  | start created =>
    rw [stopped] at created
    cases created
  | accept signal priority live opened => exact absurd (.inr stopped) opened
  | abort signal live =>
    have fired : ({ w with aborted := signal :: w.aborted } : WorkflowPool).state = .stopped := stopped
    have kept : ∀ (v : WorkflowPool) (task : Nat), v.state = .stopped → (cancel v task).state = .stopped := by
      intro v task held
      rw [cancel, pump_stopped]
      · exact held
      · exact held
    exact notify_rule (fun v => v.state = .stopped) kept signal (w.listeners signal) fired
  | advance a task stage active still => exact stopped
  | finish a task active => exact absurd (.inl (accounted.counted task active)) (accounted.idle stopped)
  | stop =>
    rw [stop, if_pos stopped]
    exact stopped

end Starts

section Live
variable {A Q : Type} {D : Discipline A Q} {L : Lawful D} {argument : Number → A} {same : WorkflowQueue → Q → Prop}
variable {w : WorkflowPool} {p : Pool A Q}

/-- What the live pool is known to count, the workflow pool counts. -/
theorem agrees_accounted (mirrors : Mirrors D argument same) (agrees : Agrees argument same w p) (sound : Sound L p)
    (unstarted : Unstarted w) : Accounted w := by
  have counted : ∀ task, (w.stage task).isActive = true → w.active ≠ 0 := by
    intro task active
    obtain ⟨tasks, counts⟩ := sound.counted
    have mem := (counts.mem task).mpr ((agrees.stage task).symm.trans active)
    rw [agrees.active, ← counts.length]
    exact Nat.ne_of_gt (List.length_pos_of_mem mem)
  have idle : w.state = .stopped → ¬w.busy := by
    intro stopped
    obtain ⟨inactive, empty⟩ := sound.idle (agrees.state.symm.trans stopped)
    have vacant := (sound_length_zero sound).mpr empty
    rw [WorkflowPool.busy, agrees.active, mirrors.length agrees.queue]
    omega
  refine ⟨?_, counted, idle⟩
  intro task active
  cases state : w.state with
  | created =>
    have none : task ∉ p.starts.map Start.task := by
      rw [← agrees.starts, unstarted state]
      exact List.not_mem_nil
    have waiting : p.stage task = .waiting := by
      by_contra begun
      exact none ((sound.started task).mpr begun)
    rw [agrees.stage task, waiting] at active
    cases active
  | running => exact .inl rfl
  | stopping => exact .inr rfl
  | stopped => exact absurd (.inl (counted task active)) (idle state)

theorem make_live {name : String} {executors : Number} {priority : Bool}
    (made : make name executors priority = .ok w) (empty : same (.make priority) D.empty) :
    ∃ p, Pools.Reached D Any p ∧ Agrees argument same w p := by
  have single : ∀ count : ℚ, count ≠ 0 → make name (.finite count) priority = .ok w →
      ∃ p, Pools.Reached D Any p ∧ Agrees argument same w p := by
    intro count nonzero made
    have chosen : Number.finite count ≠ .finite 0 := fun zero => nonzero (Number.finite.inj zero)
    have live : ∃ p, Pools.make D name none (.finite count) = .ok p := by
      simp only [make] at made
      simp only [Pools.make, normalizeExecutorsCount]
      split at made
      · cases made
      · rename_i sized
        exact ⟨_, by rw [if_neg sized]⟩
    obtain ⟨p, live⟩ := live
    exact ⟨p, ⟨name, none, _, p, live, .refl p⟩, make_agrees chosen made live empty⟩
  cases executors with
  | finite count =>
    by_cases zero : count = 0
    · subst zero
      exact single 1 (by decide) made
    · exact single count zero made
  | nan => cases made
  | negInfinity => cases made
  | posInfinity => cases made

theorem step_live (mirrors : Mirrors D argument same) (agrees : Agrees argument same w p) {a : Action}
    {v : WorkflowPool} (next : step w a = some v) :
    ∃ q, Steps (Pools.step D) Any p q ∧ Agrees argument same v q := by
  have unresized : ∀ {p q : Pool A Q} {events}, Shows (liveStep D) liveShown p events q →
      Steps (Pools.step D) Any p q := by
    intro p q events run
    have steps := shows_steps run
    clear run
    induction steps with
    | refl => exact .refl _
    | @tail t u a _ _ next ih =>
      have stepped : Pools.step D t a = some u := by
        cases a with
        | resize size => cases next
        | _ => exact next
      exact .tail ih trivial stepped
  cases here : shown argument w a with
  | none => exact ⟨p, .refl p, quiet_agrees agrees here next⟩
  | some e =>
    obtain ⟨q, run, kept⟩ := live_answers mirrors agrees (shown_does here next)
    exact ⟨q, unresized run, kept⟩

theorem steps_live (mirrors : Mirrors D argument same) (agrees : Agrees argument same w p)
    (reached : Pools.Reached D Any p) {v : WorkflowPool} (run : Steps step Any w v) :
    ∃ q, Pools.Reached D Any q ∧ Agrees argument same v q := by
  induction run with
  | refl => exact ⟨p, reached, agrees⟩
  | tail _ _ next ih =>
    obtain ⟨q, ⟨name, parallelism, executors, first, made, steps⟩, kept⟩ := ih
    obtain ⟨r, more, ends⟩ := step_live mirrors kept next
    exact ⟨r, ⟨name, parallelism, executors, first, made, steps_trans steps more⟩, ends⟩

end Live

structure Rest (w : WorkflowPool) : Prop where
  accounted : Accounted w
  promised : Promised w
  settled : Settled w

theorem reached_accounted {w : WorkflowPool} (reached : Reached w) : Accounted w := by
  obtain ⟨name, executors, priority, first, made, run⟩ := reached
  have unstarted : Unstarted w := by
    apply steps_invariant Unstarted (fun _ _ _ held _ next => move_unstarted held (step_move next)) run
    intro _
    unfold make at made
    split at made
    · split at made
      · cases made
      · cases made
        rfl
    · cases made
  cases priority with
  | false =>
    obtain ⟨p, start, agrees⟩ : ∃ p, Pools.Reached fifo Any p ∧ Agrees (fun _ => ()) sameFifo first p := make_live made rfl
    obtain ⟨q, reached, kept⟩ := steps_live fifo_mirrors agrees start run
    exact agrees_accounted fifo_mirrors kept (reached_steady fifoLawful reached).sound unstarted
  | true =>
    obtain ⟨p, start, agrees⟩ : ∃ p, Pools.Reached prioritised Any p ∧ Agrees id samePriorities first p := make_live made rfl
    obtain ⟨q, reached, kept⟩ := steps_live priorities_mirror agrees start run
    exact agrees_accounted priorities_mirror kept (reached_steady prioritisedLawful reached).sound unstarted

/-- In every reachable state the current idle promise is open exactly while
    the pool is busy. -/
theorem reached_rest {w : WorkflowPool} (reached : Reached w) : Rest w := by
  have whole := reached
  obtain ⟨name, executors, priority, first, made, run⟩ := reached
  have kept : ∀ {w}, Steps step Any first w → Promised w ∧ Settled w := by
    intro w run
    induction run with
    | refl => exact make_promised made
    | tail before _ next ih =>
      have accounted := reached_accounted ⟨name, executors, priority, first, made, before⟩
      exact move_promised accounted ih.1 ih.2 (step_move next)
  obtain ⟨promised, settled⟩ := kept run
  exact ⟨reached_accounted whole, promised, settled⟩

theorem rest_idle {w : WorkflowPool} (rest : Rest w) : w.resolved w.idle = false ↔ w.busy :=
  rest.promised.unresolved.trans ⟨rest.settled, rest.promised.busy⟩

theorem rest_open {w : WorkflowPool} (rest : Rest w) {promise : Nat} (made : promise < w.promises)
    (unresolved : w.resolved promise = false) : promise = w.idle ∧ w.resolveIdle = some promise ∧ w.busy := by
  have current : promise = w.idle := by
    by_contra other
    rw [rest.promised.earlier promise made other] at unresolved
    cases unresolved
  subst current
  have opened := rest.promised.unresolved.mp unresolved
  refine ⟨rfl, ?_, rest.settled opened⟩
  obtain ⟨promise, is⟩ := Option.ne_none_iff_exists'.mp opened
  rw [is, rest.promised.resolver promise is]

end WorkflowPools
