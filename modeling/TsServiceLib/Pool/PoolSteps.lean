import TsServiceLib.Pool.TaskPool

/-!
What a step of a pool can do, said once. A turn of the pump and a whole step
are inverted here; the invariants of the pools go through these cases and do
not unfold the operations again.
-/
namespace Pools
open Transitions Numbers

inductive Move {A Q : Type} (D : Discipline A Q) (p : Pool A Q) : Action A → Pool A Q → Prop where
  /-- An operation that threw or rejected, or a resize of a stopping pool. -/
  | unchanged (a : Action A) : Move D p a p
  | start (created : p.state = .created) : Move D p .start (pump D { p with state := .running })
  | resize (size : Number) (count : Nat) (opened : ¬(p.state = .stopping ∨ p.state = .stopped)) :
      Move D p (.resize size) (pump D { p with executorsCount := count })
  | accept (signal : Nat) (argument : A) (live : signal ∉ p.aborted)
      (opened : ¬(p.state = .stopping ∨ p.state = .stopped)) :
      Move D p (.addTask signal false argument) (pump D { p with
        submissions := p.submissions ++ [⟨signal, argument⟩]
        listeners := Function.update p.listeners signal (p.listeners signal ++ [p.submissions.length])
        queue := D.push (D.create p.queue p.submissions.length argument) p.submissions.length })
  | abort (signal : Nat) (live : signal ∉ p.aborted) : Move D p (.abort signal) (abort D p signal)
  | run (task : Nat) (scheduled : p.stage task = .scheduled) :
      Move D p (.run task) { toStage p task .executing with executed := task :: p.executed }
  | advance (a : Action A) (task : Nat) (stage : Stage) (active : (p.stage task).isActive = true)
      (still : stage.isActive = true) (past : stage ≠ .scheduled) : Move D p a (toStage p task stage)
  | finish (a : Action A) (task : Nat) (active : (p.stage task).isActive = true) :
      Move D p a (taskFinished D p task)
  | stop : Move D p .stop (stop D p)
  | settle (a : Action A) (call : Nat) (outcome : StopCall)
      (allowed : outcome = .fulfilled → p.drain = .resolved) :
      Move D p a { p with stopCalls := p.stopCalls.set call outcome }

section Moves
variable {A Q : Type} {D : Discipline A Q} {p : Pool A Q}

theorem startNext_some {q : Pool A Q} (next : startNext D p = some q) :
    p.active < p.executorsCount ∧ ∃ task rest, D.take p.queue = (some task, rest) ∧
      q = dispatch D p task rest := by
  unfold startNext at next
  split at next
  · rename_i room
    split at next
    · cases next
    · rename_i task rest taken
      cases next
      exact ⟨room.1, task, rest, taken, rfl⟩
  · cases next

/-- The rule for the pump: what a turn keeps and the end of a drain keeps. -/
theorem pump_invariant (Inv : Pool A Q → Prop)
    (turn : ∀ p q, Inv p → startNext D p = some q → Inv q)
    (finish : ∀ p, Inv p → Inv (finishDrainIfIdle D p)) (start : Inv p) : Inv (pump D p) := by
  have loop : ∀ turns p, Inv p → Inv (pumpLoop D turns p) := by
    intro turns
    induction turns with
    | zero => exact fun _ held => held
    | succ turns ih =>
      intro p held
      unfold pumpLoop
      split
      · exact held
      · rename_i q next
        exact ih q (turn p q held next)
  unfold pump
  split
  · exact finish _ (loop _ p start)
  · exact start

theorem start_move : Move D p .start (orUnchanged p (start D p)) := by
  unfold start
  split
  · rename_i created
    exact .start created
  · exact .unchanged _

theorem resize_move (size : Number) : Move D p (.resize size) (orUnchanged p (resize D p size)) := by
  unfold resize
  split
  · exact .unchanged _
  · rename_i opened
    split
    · exact .unchanged _
    · exact .resize size _ opened

theorem addTask_move (signal : Nat) (expired : Bool) (argument : A) :
    Move D p (.addTask signal expired argument) (orUnchanged p (addTask D p signal expired argument)) := by
  unfold addTask
  split
  · exact .unchanged _
  · rename_i usable
    split
    · exact .unchanged _
    · rename_i opened
      have live : signal ∉ p.aborted := fun fired => usable (.inl fired)
      have current : expired = false := by
        cases expired with
        | false => trivial
        | true => exact absurd (.inr rfl) usable
      subst current
      simp only [subscribeAbort, live, if_false]
      exact .accept signal argument live opened

theorem reported_move (a : Action A) {task : Nat} (path : ErrorPath)
    (active : (p.stage task).isActive = true) : Move D p a (reported D p task path) := by
  cases path with
  | thrown => exact .finish a task active
  | rejected => exact .advance a task .settled active rfl (by simp)

theorem reportPoolError_move (a : Action A) {task : Nat} (ownReason : Bool) (path : ErrorPath)
    (active : (p.stage task).isActive = true) :
    Move D p a (reportPoolError D p task ownReason path) := by
  unfold reportPoolError
  split
  · exact reported_move a path active
  · exact .advance a task (.reporting path) active rfl (by simp)

theorem step_move {q : Pool A Q} {a : Action A} (next : step D p a = some q) : Move D p a q := by
  have active : ∀ {task : Nat} {stage : Stage}, p.stage task = stage → stage.isActive = true →
      (p.stage task).isActive = true := by
    intro task stage here still
    rw [here]
    exact still
  cases a with
  | start =>
    cases next
    exact start_move
  | resize size =>
    cases next
    exact resize_move size
  | addTask signal expired argument =>
    cases next
    exact addTask_move signal expired argument
  | abort signal =>
    simp only [step] at next
    split at next
    · cases next
    · rename_i live
      cases next
      exact .abort signal live
  | run task =>
    simp only [step] at next
    split at next
    · rename_i scheduled
      cases next
      exact .run task scheduled
    · cases next
  | throws task ownReason =>
    simp only [step] at next
    split at next
    · rename_i executing
      cases next
      exact reportPoolError_move _ ownReason .thrown (active executing rfl)
    · cases next
  | returns task =>
    simp only [step] at next
    split at next
    · rename_i executing
      cases next
      exact .advance _ task .awaiting (active executing rfl) rfl (by simp)
    · cases next
  | settles task rejection =>
    simp only [step] at next
    split at next
    · rename_i awaiting
      cases rejection with
      | none =>
        cases next
        exact .advance _ task .settled (active awaiting rfl) rfl (by simp)
      | some ownReason =>
        cases next
        exact reportPoolError_move _ ownReason .rejected (active awaiting rfl)
    · cases next
  | reporterEnds task threw =>
    simp only [step] at next
    split at next
    · rename_i path reporting
      cases next
      exact reported_move _ path (active reporting rfl)
    · cases next
  | completes task =>
    simp only [step] at next
    split at next
    · rename_i settled
      cases next
      exact .finish _ task (active settled rfl)
    · cases next
  | stop =>
    cases next
    exact .stop
  | drained call =>
    simp only [step] at next
    split at next
    · rename_i waiting
      cases next
      exact .settle _ call .fulfilled fun _ => waiting.2
    · cases next
  | gaveUp call =>
    simp only [step] at next
    split at next
    · cases next
      exact .settle _ call .rejected (by simp)
    · cases next

end Moves

end Pools
