import TsServiceLib.Service.TaskRegistry
import Mathlib.Data.List.Perm.Basic

/-!
What `drain` promises. Every task that was admitted is in its synchronous part,
registered, or removed, and it is in one of these places once. Outside of
synchronous parts an empty registry therefore means that every task was
removed, and a task is removed by the reaction to its settled promise.
-/
namespace TaskRegistries
open Transitions

section Invariant
variable {T : Type} {s t : State T}

def State.Admitted (s : State T) (id : Nat) : Prop := 1 ≤ id ∧ id < s.nextId

def State.places (s : State T) : List Nat := s.starting ++ s.tasks ++ s.removed

structure Kept (s : State T) : Prop where
  numbered : 1 ≤ s.nextId
  placed : ∀ id, id ∈ s.places ↔ s.Admitted id
  once : s.places.Nodup
  unsettled : ∀ id ∈ s.starting, (s.task id).promise = none
  settled : ∀ id ∈ s.removed, (s.task id).promise ≠ none
  single : s.reporting.length ≤ 1
  reported : ∀ id ∈ s.reporting, id ∈ s.tasks ∧ (s.task id).promise ≠ none

theorem initial_kept (hasReporter : Bool) : Kept ({ hasReporter } : State T) where
  numbered := Nat.le_refl 1
  placed := by
    intro id
    simp only [State.places, State.starting, State.Admitted, List.filterMap_nil, List.append_nil, List.not_mem_nil,
      false_iff]
    omega
  once := List.nodup_nil
  unsettled := by simp [State.starting]
  settled := by simp
  single := Nat.zero_le 1
  reported := by simp [State.reporting]

theorem kept_moved (kept : Kept s) (places : t.places.Perm s.places) (next : t.nextId = s.nextId)
    (unsettled : ∀ id ∈ t.starting, (t.task id).promise = none)
    (settled : ∀ id ∈ t.removed, (t.task id).promise ≠ none) (single : t.reporting.length ≤ 1)
    (reported : ∀ id ∈ t.reporting, id ∈ t.tasks ∧ (t.task id).promise ≠ none) : Kept t := by
  refine ⟨?_, ?_, ?_, unsettled, settled, single, reported⟩
  · rw [next]
    exact kept.numbered
  · intro id
    rw [places.mem_iff, kept.placed, State.Admitted, State.Admitted, next]
  · exact places.nodup_iff.mpr kept.once

theorem kept_frame (kept : Kept s) (stack : t.stack = s.stack) (tasks : t.tasks = s.tasks)
    (removed : t.removed = s.removed) (next : t.nextId = s.nextId)
    (promises : ∀ id, (t.task id).promise = (s.task id).promise) : Kept t := by
  refine kept_moved kept ?_ next ?_ ?_ ?_ ?_
  · simp only [State.places, State.starting, stack, tasks, removed]
    exact .refl _
  · simp only [State.starting, stack, promises]
    exact kept.unsettled
  · simp only [removed, promises]
    exact kept.settled
  · simp only [State.reporting, stack]
    exact kept.single
  · simp only [State.reporting, stack, tasks, promises]
    exact kept.reported

theorem startTask_kept (kept : Kept s) (entry : Entry) : Kept (startTask s entry) := by
  obtain ⟨numbered, placed, once, unsettled, settled, single, reported⟩ := kept
  have new : s.nextId ∉ s.places := by
    intro mem
    have below := ((placed s.nextId).mp mem).2
    omega
  have places : (startTask s entry).places = s.nextId :: s.places := rfl
  have other : ∀ id ∈ s.places, (startTask s entry).task id = s.task id := by
    intro id mem
    have apart : id ≠ s.nextId := fun same => new (same ▸ mem)
    simp only [startTask, Function.update_of_ne apart]
  refine ⟨Nat.le_succ_of_le numbered, ?_, ?_, ?_, ?_, single, ?_⟩
  · intro id
    rw [places, List.mem_cons, placed]
    simp only [State.Admitted, startTask]
    omega
  · rw [places, List.nodup_cons]
    exact ⟨new, once⟩
  · intro id mem
    rcases List.mem_cons.mp (show id ∈ s.nextId :: s.starting from mem) with rfl | before
    · simp only [startTask, Function.update_self]
    · rw [other id (List.mem_append_left _ (List.mem_append_left _ before))]
      exact unsettled id before
  · intro id mem
    rw [other id (List.mem_append_right _ mem)]
    exact settled id mem
  · intro id mem
    have known := reported id mem
    rw [other id (List.mem_append_left _ (List.mem_append_right _ known.1))]
    exact known

/-- User code is called that is no task, for one task at most at a time. -/
theorem push_kept (kept : Kept s) {frame : Frame} (quiet : frame.started = none)
    (reporting : ∀ id, frame.reported = some id → s.stack = [] ∧ id ∈ s.tasks ∧ (s.task id).promise ≠ none) :
    Kept (s.push frame) := by
  have starting : (s.push frame).starting = s.starting := by
    simp only [State.starting, State.push, List.filterMap_cons, quiet]
  have places : (s.push frame).places = s.places := by
    simp only [State.places, starting]
    rfl
  refine kept_moved kept (places ▸ .refl _) rfl ?_ kept.settled ?_ ?_
  · rw [starting]
    exact kept.unsettled
  · cases named : frame.reported with
    | none =>
      simp only [State.reporting, State.push, List.filterMap_cons, named]
      exact kept.single
    | some id =>
      simp only [State.reporting, State.push, List.filterMap_cons, named, (reporting id named).1]
      exact Nat.le_refl 1
  · intro id mem
    cases named : frame.reported with
    | none =>
      simp only [State.reporting, State.push, List.filterMap_cons, named] at mem
      exact kept.reported id mem
    | some own =>
      simp only [State.reporting, State.push, List.filterMap_cons, named, (reporting own named).1,
        List.filterMap_nil, List.mem_singleton] at mem
      rw [mem]
      exact (reporting own named).2

theorem admit_kept (kept : Kept s) (entry : Entry) : Kept (admitTask s entry) := by
  unfold admitTask
  split
  · exact startTask_kept kept entry
  · split
    · have logged : Kept (s.log (.refused entry.context)) := kept_frame kept rfl rfl rfl rfl fun _ => rfl
      apply push_kept logged rfl
      intro id named
      cases named
    · exact kept

theorem taskReturns_kept (kept : Kept s) {threw : Option Thrown} (next : taskReturns s threw = some t) : Kept t := by
  unfold taskReturns at next
  split at next
  · rename_i id below top
    cases next
    have settling : ∀ n, (s.task n).promise ≠ none →
        (Function.update s.task id ((s.task id).returned threw) n).promise ≠ none := by
      intro n settled
      rcases eq_or_ne n id with rfl | other
      · rw [Function.update_self]
        cases threw with
        | none => exact settled
        | some error => simp [Task.returned]
      · rw [Function.update_of_ne other]
        exact settled
    have reporting : s.reporting = below.filterMap Frame.reported := by
      simp only [State.reporting, top, List.filterMap_cons, Frame.reported]
    have starting : s.starting = id :: below.filterMap Frame.started := by
      simp only [State.starting, top, List.filterMap_cons, Frame.started]
    refine kept_moved kept ?_ rfl ?_ ?_ ?_ ?_
    · simp only [State.places, State.starting, top, List.filterMap_cons, Frame.started, List.append_assoc,
        List.cons_append, List.nil_append]
      rw [← List.append_assoc, ← List.append_assoc]
      exact List.perm_middle
    · intro n mem
      have apart : n ≠ id := by
        have once := kept.once
        rw [State.places, starting, List.append_assoc, List.cons_append, List.nodup_cons] at once
        intro same
        exact once.1 (List.mem_append_left _ (same ▸ mem))
      simp only [Function.update_of_ne apart]
      exact kept.unsettled n (starting ▸ List.mem_cons_of_mem _ mem)
    · exact fun n mem => settling n (kept.settled n mem)
    · have single := kept.single
      rw [reporting] at single
      exact single
    · intro n mem
      have known := kept.reported n (reporting ▸ mem)
      exact ⟨List.mem_append_left _ known.1, settling n known.2⟩
  · cases next

theorem settle_kept (kept : Kept s) {id : Nat} {outcome : Outcome T} (next : settle s id outcome = some t) : Kept t := by
  unfold settle at next
  split at next
  · rename_i waiting
    cases next
    have settling : ∀ n, (s.task n).promise ≠ none →
        (Function.update s.task id { s.task id with promise := some outcome } n).promise ≠ none := by
      intro n settled
      rcases eq_or_ne n id with rfl | other
      · simp
      · simpa [other] using settled
    refine kept_moved kept (.refl _) rfl ?_ ?_ kept.single ?_
    · intro n mem
      have apart : n ≠ id := by
        rintro rfl
        have once := kept.once
        rw [State.places, List.append_assoc] at once
        exact (List.disjoint_of_nodup_append once) mem (List.mem_append_left _ waiting.1)
      simp only [Function.update_of_ne apart]
      exact kept.unsettled n mem
    · exact fun n mem => settling n (kept.settled n mem)
    · exact fun n mem => ⟨(kept.reported n mem).1, settling n (kept.reported n mem).2⟩
  · cases next

theorem delete_kept (kept : Kept s) {id : Nat} (mem : id ∈ s.tasks) (settled : (s.task id).promise ≠ none)
    (ended : id ∉ s.reporting) : Kept (delete s id) := by
  refine kept_moved kept ?_ rfl kept.unsettled ?_ kept.single ?_
  · have taken : s.tasks.Perm (id :: s.tasks.erase id) := List.perm_cons_erase mem
    have places : (delete s id).places = (s.starting ++ s.tasks.erase id) ++ id :: s.removed := rfl
    rw [places]
    refine List.perm_middle.trans ?_
    rw [← List.cons_append]
    refine List.Perm.append_right _ ?_
    exact (List.perm_middle.symm).trans (taken.symm.append_left _)
  · intro n removed
    rcases List.mem_cons.mp removed with same | before
    · rw [same]
      exact settled
    · exact kept.settled n before
  · intro n reporting
    have known := kept.reported n reporting
    have other : n ≠ id := fun same => ended (same ▸ reporting)
    exact ⟨(List.mem_erase_of_ne other).mpr known.1, known.2⟩

/-- A reaction removes the task or calls the reporter for it. -/
theorem react_cases {id : Nat} (next : react s id = some t) :
    s.stack = [] ∧ id ∈ s.tasks ∧ (s.task id).promise ≠ none ∧
      ∃ r, (r = s ∨ ∃ report, r = s.log report) ∧ (t = delete r id ∨ t = r.push (.reporting id)) := by
  unfold react at next
  split at next
  · rename_i idle
    refine ⟨idle.1, idle.2, ?_⟩
    dsimp only at next
    split at next
    · cases next
    · rename_i value fulfilled
      cases next
      exact ⟨by simp [fulfilled], s, .inl rfl, .inl rfl⟩
    · rename_i value rejected
      refine ⟨by simp [rejected], ?_⟩
      split at next
      · cases next
        exact ⟨s, .inl rfl, .inl rfl⟩
      · split at next
        · cases next
          exact ⟨_, .inr ⟨_, rfl⟩, .inr rfl⟩
        · split at next
          · cases next
            exact ⟨_, .inr ⟨_, rfl⟩, .inl rfl⟩
          · cases next
            exact ⟨s, .inl rfl, .inl rfl⟩
  · cases next

theorem react_kept (kept : Kept s) {id : Nat} (next : react s id = some t) : Kept t := by
  obtain ⟨quiet, mem, settled, r, logged, moved⟩ := react_cases next
  have same : Kept r ∧ r.stack = [] ∧ r.tasks = s.tasks ∧ r.task = s.task := by
    rcases logged with rfl | ⟨report, rfl⟩
    · exact ⟨kept, quiet, rfl, rfl⟩
    · exact ⟨kept_frame kept rfl rfl rfl rfl fun _ => rfl, quiet, rfl, rfl⟩
  obtain ⟨keptR, idle, tasks, task⟩ := same
  rw [← tasks] at mem
  rw [← task] at settled
  rcases moved with rfl | rfl
  · exact delete_kept keptR mem settled (by simp [State.reporting, idle])
  · apply push_kept keptR rfl
    intro n named
    cases named
    exact ⟨idle, mem, settled⟩

theorem reporterReturns_kept (kept : Kept s) (threw : Bool) (next : reporterReturns s threw = some t) : Kept t := by
  unfold reporterReturns at next
  split at next
  · rename_i id below top
    cases next
    have single := kept.single
    have first := kept.reported id (by simp [State.reporting, top, Frame.reported])
    simp only [State.reporting, top, List.filterMap_cons, Frame.reported, List.length_cons] at single
    have alone : below.filterMap Frame.reported = [] := List.eq_nil_of_length_eq_zero (by omega)
    have popped : Kept { s with stack := below } := by
      have starting : s.starting = below.filterMap Frame.started := by
        simp only [State.starting, top, List.filterMap_cons, Frame.started]
      refine kept_moved kept ?_ rfl ?_ kept.settled ?_ ?_
      · rw [State.places, State.places, starting]
        exact .refl _
      · exact fun n mem => kept.unsettled n (starting ▸ mem)
      · simp [State.reporting, alone]
      · simp [State.reporting, alone]
    exact delete_kept popped first.1 first.2 (by simp [State.reporting, alone])
  · rename_i below top
    cases next
    have reporting : s.reporting = below.filterMap Frame.reported := by
      simp only [State.reporting, top, List.filterMap_cons, Frame.reported]
    have single := kept.single
    rw [reporting] at single
    have starting : s.starting = below.filterMap Frame.started := by
      simp only [State.starting, top, List.filterMap_cons, Frame.started]
    refine kept_moved kept ?_ rfl ?_ kept.settled single ?_
    · rw [State.places, State.places, starting]
      exact .refl _
    · exact fun n mem => kept.unsettled n (starting ▸ mem)
    · exact fun n mem => kept.reported n (reporting ▸ mem)
  · cases next

theorem abortTasks_promise (hears : Task T → Bool) (reason : Thrown) (id : Nat) :
    (abortTasks s hears reason id).promise = (s.task id).promise := by
  unfold abortTasks
  split <;> rfl

theorem cancel_kept (kept : Kept s) (reason : Thrown) : Kept (cancel s reason) := by
  unfold cancel
  split
  · exact kept_frame kept rfl rfl rfl rfl fun _ => rfl
  · exact kept_frame kept rfl rfl rfl rfl (abortTasks_promise _ _)

theorem abortExternal_kept (kept : Kept s) (signal : Nat) (reason : Thrown) : Kept (abortExternal s signal reason) := by
  unfold abortExternal
  split
  · exact kept
  · exact kept_frame kept rfl rfl rfl rfl (abortTasks_promise _ _)

theorem drainResumes_eq {d : Nat} (next : drainResumes s d = some t) :
    s.stack = [] ∧ t = setDrain s d (drainLoop s) := by
  unfold drainResumes at next
  split at next
  · split at next
    · rename_i ready
      cases next
      exact ⟨ready.1, rfl⟩
    · cases next
  · cases next

theorem drainExpires_eq {d : Nat} (next : drainExpires s d = some t) : t = setDrain s d .timedOut := by
  unfold drainExpires at next
  split at next
  · split at next
    · cases next
      rfl
    · cases next
  · cases next

theorem step_kept {a : Action T} (kept : Kept s) (next : step s a = some t) : Kept t := by
  cases a with
  | admitTask entry =>
    cases next
    exact admit_kept kept entry
  | taskReturns threw => exact taskReturns_kept kept next
  | settle id outcome => exact settle_kept kept next
  | react id => exact react_kept kept next
  | reporterReturns threw => exact reporterReturns_kept kept threw next
  | stopAdmission =>
    cases next
    exact kept_frame kept rfl rfl rfl rfl fun _ => rfl
  | cancel reason =>
    cases next
    exact cancel_kept kept reason
  | abortExternal signal reason =>
    cases next
    exact abortExternal_kept kept signal reason
  | drain timed =>
    cases next
    exact kept_frame kept rfl rfl rfl rfl fun _ => rfl
  | drainResumes d =>
    rw [(drainResumes_eq next).2]
    exact kept_frame kept rfl rfl rfl rfl fun _ => rfl
  | drainExpires d =>
    rw [drainExpires_eq next]
    exact kept_frame kept rfl rfl rfl rfl fun _ => rfl

theorem reachable_kept (reach : Reachable s) : Kept s := by
  obtain ⟨hasReporter, run⟩ := reach
  exact steps_invariant Kept (fun _ _ _ kept _ next => step_kept kept next) run (initial_kept hasReporter)

end Invariant

section Drains
variable {T : Type} {s t : State T}

def State.drained (s : State T) (d : Nat) : Prop := (s.drains d).phase = .resolved

/-- Every task that was admitted has settled and has been removed. -/
def State.AllSettled (s : State T) : Prop := ∀ id, s.Admitted id → (s.task id).promise ≠ none ∧ id ∈ s.removed

theorem empty_settled (kept : Kept s) (starting : s.starting = []) (tasks : s.tasks = []) : s.AllSettled := by
  intro id admitted
  have place := (kept.placed id).mpr admitted
  simp only [State.places, starting, tasks, List.nil_append] at place
  exact ⟨kept.settled id place, place⟩

theorem drainLoop_resolved (resolved : drainLoop s = .resolved) : s.tasks = [] := by
  unfold drainLoop at resolved
  split at resolved
  · assumption
  · cases resolved

/-- Nothing but a drain that finds the registry empty resolves a drain. -/
theorem drain_settled {a : Action T} {d : Nat} (kept : Kept s) (next : step s a = some t) (before : ¬s.drained d)
    (after : t.drained d) (outside : (t.drains d).outside = true) : t.AllSettled := by
  have unchanged : t.drains = s.drains → t.AllSettled := by
    intro same
    rw [State.drained, same] at after
    exact absurd after before
  cases a with
  | drain timed =>
    cases next
    rcases eq_or_ne d s.nextDrain with rfl | other
    · simp only [State.drained, drain, Function.update_self] at after outside
      exact empty_settled (s := s) kept (of_decide_eq_true outside) (drainLoop_resolved after)
    · simp only [State.drained, drain, Function.update_of_ne other] at after
      exact absurd after before
  | drainResumes n =>
    obtain ⟨idle, same⟩ := drainResumes_eq next
    subst same
    rcases eq_or_ne d n with rfl | other
    · simp only [State.drained, setDrain, Function.update_self] at after
      exact empty_settled (s := s) kept (by simp [State.starting, idle]) (drainLoop_resolved after)
    · simp only [State.drained, setDrain, Function.update_of_ne other] at after
      exact absurd after before
  | drainExpires n =>
    rw [drainExpires_eq next] at after
    rcases eq_or_ne d n with rfl | other
    · simp [State.drained, setDrain] at after
    · simp only [State.drained, setDrain, Function.update_of_ne other] at after
      exact absurd after before
  | admitTask entry =>
    cases next
    apply unchanged
    unfold admitTask
    split
    · rfl
    · split <;> rfl
  | taskReturns threw =>
    apply unchanged
    simp only [step, taskReturns] at next
    split at next <;> cases next
    rfl
  | settle id outcome =>
    apply unchanged
    simp only [step, settle] at next
    split at next <;> cases next
    rfl
  | react id =>
    obtain ⟨_, _, _, r, logged, moved⟩ := react_cases next
    apply unchanged
    rcases logged with rfl | ⟨report, rfl⟩
    · rcases moved with rfl | rfl <;> rfl
    · rcases moved with rfl | rfl <;> rfl
  | reporterReturns threw =>
    apply unchanged
    simp only [step, reporterReturns] at next
    split at next <;> cases next <;> rfl
  | stopAdmission =>
    cases next
    exact unchanged rfl
  | cancel reason =>
    cases next
    apply unchanged
    unfold cancel
    split <;> rfl
  | abortExternal signal reason =>
    cases next
    apply unchanged
    unfold abortExternal
    split <;> rfl

end Drains

section Runs
variable {T : Type} {s t : State T}

theorem step_admission {a : Action T} (next : step s a = some t) :
    (∃ entry, s.accepting = true ∧ t = startTask s entry) ∨
      (s.accepting = false → t.accepting = false) ∧ t.nextId = s.nextId := by
  cases a with
  | admitTask entry =>
    cases next
    unfold admitTask
    split
    · rename_i accepting
      exact .inl ⟨entry, accepting, rfl⟩
    · right
      split <;> exact ⟨id, rfl⟩
  | taskReturns threw =>
    simp only [step, taskReturns] at next
    split at next <;> cases next
    exact .inr ⟨id, rfl⟩
  | settle n outcome =>
    simp only [step, settle] at next
    split at next <;> cases next
    exact .inr ⟨id, rfl⟩
  | react n =>
    obtain ⟨_, _, _, r, logged, moved⟩ := react_cases next
    right
    rcases logged with rfl | ⟨report, rfl⟩
    · rcases moved with rfl | rfl <;> exact ⟨id, rfl⟩
    · rcases moved with rfl | rfl <;> exact ⟨id, rfl⟩
  | reporterReturns threw =>
    simp only [step, reporterReturns] at next
    split at next <;> cases next <;> exact .inr ⟨id, rfl⟩
  | stopAdmission =>
    cases next
    exact .inr ⟨fun _ => rfl, rfl⟩
  | cancel reason =>
    cases next
    right
    unfold cancel
    split <;> exact ⟨fun _ => rfl, rfl⟩
  | abortExternal signal reason =>
    cases next
    right
    unfold abortExternal
    split <;> exact ⟨id, rfl⟩
  | drain timed =>
    cases next
    exact .inr ⟨id, rfl⟩
  | drainResumes d =>
    rw [(drainResumes_eq next).2]
    exact .inr ⟨id, rfl⟩
  | drainExpires d =>
    rw [drainExpires_eq next]
    exact .inr ⟨id, rfl⟩

theorem step_refuses {a : Action T} (stopped : s.accepting = false) (next : step s a = some t) :
    t.accepting = false ∧ t.nextId = s.nextId := by
  rcases step_admission next with ⟨entry, accepting, _⟩ | ⟨refuses, same⟩
  · rw [stopped] at accepting
    cases accepting
  · exact ⟨refuses stopped, same⟩

theorem step_admitted {a : Action T} {id : Nat} (admitted : s.Admitted id) (next : step s a = some t) : t.Admitted id := by
  obtain ⟨positive, below⟩ := admitted
  refine ⟨positive, ?_⟩
  rcases step_admission next with ⟨entry, _, rfl⟩ | ⟨_, same⟩
  · exact Nat.lt_succ_of_lt below
  · omega

theorem step_promise {a : Action T} (kept : Kept s) {id : Nat} {outcome : Outcome T} (admitted : s.Admitted id)
    (settled : (s.task id).promise = some outcome) (next : step s a = some t) :
    (t.task id).promise = some outcome := by
  cases a with
  | admitTask entry =>
    cases next
    have apart : id ≠ s.nextId := Nat.ne_of_lt admitted.2
    unfold admitTask
    split
    · simpa only [startTask, Function.update_of_ne apart] using settled
    · split <;> exact settled
  | taskReturns threw =>
    simp only [step, taskReturns] at next
    split at next <;> cases next
    rename_i n below top
    rcases eq_or_ne id n with rfl | other
    · have started : id ∈ s.starting := by simp [State.starting, top, Frame.started]
      rw [kept.unsettled id started] at settled
      cases settled
    · simpa only [Function.update_of_ne other] using settled
  | settle n result =>
    simp only [step, settle] at next
    split at next <;> cases next
    rename_i open_
    rcases eq_or_ne id n with rfl | other
    · simp [settled] at open_
    · simpa only [Function.update_of_ne other] using settled
  | react n =>
    obtain ⟨_, _, _, r, logged, moved⟩ := react_cases next
    rcases logged with rfl | ⟨report, rfl⟩
    · rcases moved with rfl | rfl <;> exact settled
    · rcases moved with rfl | rfl <;> exact settled
  | reporterReturns threw =>
    simp only [step, reporterReturns] at next
    split at next <;> cases next <;> exact settled
  | stopAdmission =>
    cases next
    exact settled
  | cancel reason =>
    cases next
    unfold cancel
    split
    · exact settled
    · rw [abortTasks_promise]
      exact settled
  | abortExternal signal reason =>
    cases next
    unfold abortExternal
    split
    · exact settled
    · rw [abortTasks_promise]
      exact settled
  | drain timed =>
    cases next
    exact settled
  | drainResumes d =>
    rw [(drainResumes_eq next).2]
    exact settled
  | drainExpires d =>
    rw [drainExpires_eq next]
    exact settled

theorem Kept.disjoint (kept : Kept s) {id : Nat} (removed : id ∈ s.removed) : id ∉ s.tasks := by
  intro registered
  exact List.disjoint_of_nodup_append kept.once (List.mem_append_right _ registered) removed

theorem quiescent_removed (kept : Kept s) (idle : s.stack = []) (quiet : ∀ id, step s (.react id) = none) {id : Nat}
    (admitted : s.Admitted id) (settled : (s.task id).promise ≠ none) : id ∈ s.removed := by
  have place := (kept.placed id).mpr admitted
  simp only [State.places, State.starting, idle, List.filterMap_nil, List.nil_append, List.mem_append] at place
  rcases place with registered | removed
  · have refused : react s id = none := quiet id
    unfold react at refused
    rw [if_pos ⟨idle, registered⟩] at refused
    dsimp only at refused
    split at refused
    · rename_i waiting
      exact absurd waiting settled
    · cases refused
    · split at refused
      · cases refused
      · split at refused
        · cases refused
        · split at refused <;> cases refused
  · exact removed

theorem reporter_ends (kept : Kept s) {id : Nat} {below : List Frame} (top : s.stack = .reporting id :: below)
    (threw : Bool) : ∃ t, step s (.reporterReturns threw) = some t ∧ id ∉ t.tasks ∧ id ∈ t.removed ∧ t.task = s.task := by
  have next : step s (.reporterReturns threw) = some (delete { s with stack := below } id) := by
    simp only [step, reporterReturns, top]
  refine ⟨_, next, ?_, List.mem_cons_self, rfl⟩
  exact (step_kept kept next).disjoint List.mem_cons_self

theorem run_promise (kept : Kept s) {id : Nat} {outcome : Outcome T} (admitted : s.Admitted id)
    (settled : (s.task id).promise = some outcome) (run : Steps step Any s t) : (t.task id).promise = some outcome := by
  have invariant := steps_invariant (fun u => Kept u ∧ u.Admitted id ∧ (u.task id).promise = some outcome) ?_ run
    ⟨kept, admitted, settled⟩
  · exact invariant.2.2
  · rintro u a v ⟨kept, admitted, settled⟩ _ next
    exact ⟨step_kept kept next, step_admitted admitted next, step_promise kept admitted settled next⟩

end Runs

/- A drain that was called outside of synchronous parts resolves only when every
   task admitted by then has settled. A task is removed once, by the reaction to
   its promise; nothing is admitted after a stop or a cancellation; a reporter
   that throws changes neither what is registered nor what the caller sees. -/
theorem drain_exact {T : Type} {s : State T} (reach : Reachable s) :
    (∀ a t d, step s a = some t → ¬s.drained d → t.drained d → (t.drains d).outside = true → t.AllSettled) ∧
      s.removed.Nodup ∧ (∀ id ∈ s.removed, id ∉ s.tasks) ∧
      (s.stack = [] → (∀ id, step s (.react id) = none) →
        ∀ id, s.Admitted id → (s.task id).promise ≠ none → id ∈ s.removed) ∧
      (∀ reason, (stopAdmission s).accepting = false ∧ (cancel s reason).accepting = false) ∧
      (s.accepting = false → ∀ t, Steps step Any s t → t.nextId = s.nextId) ∧
      (∀ id below, s.stack = .reporting id :: below → ∀ threw,
        ∃ t, step s (.reporterReturns threw) = some t ∧ id ∉ t.tasks ∧ id ∈ t.removed ∧ t.task = s.task) ∧
      (∀ t, Steps step Any s t → ∀ id outcome, s.Admitted id → (s.task id).promise = some outcome →
        (t.task id).promise = some outcome) := by
  have kept := reachable_kept reach
  refine ⟨?_, ?_, ?_, ?_, ?_, ?_, ?_, ?_⟩
  · intro a t d next before after outside
    exact drain_settled kept next before after outside
  · exact kept.once.of_append_right
  · intro id removed
    exact kept.disjoint removed
  · intro idle quiet id admitted settled
    exact quiescent_removed kept idle quiet admitted settled
  · intro reason
    refine ⟨rfl, ?_⟩
    unfold cancel
    split <;> rfl
  · intro stopped t run
    have invariant := steps_invariant (fun u => u.accepting = false ∧ u.nextId = s.nextId) ?_ run ⟨stopped, rfl⟩
    · exact invariant.2
    · rintro u a v ⟨stopped, same⟩ _ next
      obtain ⟨refuses, unchanged⟩ := step_refuses stopped next
      exact ⟨refuses, unchanged.trans same⟩
  · intro id below top threw
    exact reporter_ends kept top threw
  · intro t run id outcome admitted settled
    exact run_promise kept admitted settled run

/-- While a drain waits for a first task, which is rejected and whose reporter
    throws, a second one is admitted. -/
def rejectedWhileDraining : List (Action Nat) :=
  [.admitTask (.admitTask none), .taskReturns none, .drain false, .admitTask (.admitDetached none), .taskReturns none,
    .settle 1 (.rejected (.error 0 false)), .react 1, .reporterReturns true, .drainResumes 0,
    .settle 2 (.fulfilled 7), .react 2]

theorem drain_exact_waited : ∃ s t : State Nat, Reachable s ∧ (s.drains 0).phase = .waiting [2] ∧
    step s (.drainResumes 0) = some t ∧ t.drained 0 ∧ t.nextId = 3 ∧ t.AllSettled := by
  obtain ⟨s, t, run, waiting, next, resolved, outside, count⟩ : ∃ s t : State Nat,
      exec step { hasReporter := true } rejectedWhileDraining = some s ∧ (s.drains 0).phase = .waiting [2] ∧
      step s (.drainResumes 0) = some t ∧ (t.drains 0).phase = .resolved ∧ (t.drains 0).outside = true ∧
      t.nextId = 3 := ⟨_, _, rfl, rfl, rfl, rfl, rfl, rfl⟩
  have reach : Reachable s := ⟨true, exec_steps run⟩
  have before : ¬s.drained 0 := by simp [State.drained, waiting]
  exact ⟨s, t, reach, waiting, next, resolved, count, (drain_exact reach).1 _ t 0 next before resolved outside⟩

end TaskRegistries
