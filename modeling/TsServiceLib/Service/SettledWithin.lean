import TsServiceLib.Context.SignalGrowth

/-!
A wait for operations that ends with its context. Observers fill in the results
as the operations settle, a listener hears of an abort, and a timer that may
wake up at any time looks at the deadline again. The contexts around the call
take any step of theirs.
-/
namespace Settlements
open Numbers AbortSignals ContextDerivations Transitions

inductive SettledResult (T R : Type) where
  | fulfilled (value : T)
  | rejected (reason : R)
  deriving DecidableEq

/-- What the observer of an operation makes of how it has settled. -/
def record {T R : Type} : Except R T → SettledResult T R
  | .ok value => .fulfilled value
  | .error reason => .rejected reason

/-- What a call has returned, with the world at that moment. -/
structure Return (E T R : Type) where
  results : List (Option (SettledResult T R))
  world : World E

/-- A call: `cancelled` is whether the promise of that name has been resolved. -/
structure Call (E T R : Type) where
  context : AnyContext
  operations : List Nat
  results : List (Option (SettledResult T R))
  timer : Bool := false
  listening : Bool := false
  cancelled : Bool := false
  returned : Option (Return E T R) := none

structure State (E T R : Type) where
  system : System E
  operation : Nat → Option (Except R T)
  call : Call E T R

section Operations
variable {E T R : Type}

/-- The call up to its first `await`. -/
def settleWithinDeadline (system : System E) (operation : Nat → Option (Except R T)) (context : AnyContext)
    (operations : List Nat) : State E T R :=
  let results := operations.map fun _ => none
  let left : Return E T R := ⟨results, system.world⟩
  if operations = [] then ⟨system, operation, { context, operations, results, returned := some left }⟩
  else if cancelled system.world context then
    ⟨system, operation, { context, operations, results, returned := some left }⟩
  else
    ⟨system, operation,
      { context, operations, results
        timer := (remainingMs system.world context).isSome
        listening := true
        cancelled := system.world.aborted context.signal }⟩

variable (s : State E T R)

def settle (n : Nat) (outcome : Except R T) : Option (State E T R) :=
  match s.operation n with
  | none => some { s with operation := Function.update s.operation n (some outcome) }
  | some _ => none

/-- The observer of the operation at an index goes on after its `await`. -/
def observe (index : Nat) : Option (State E T R) :=
  match s.call.operations[index]? with
  | none => none
  | some n =>
    (s.operation n).map fun outcome =>
      { s with call := { s.call with results := s.call.results.set index (some (record outcome)) } }

def resolve : State E T R := { s with call := { s.call with timer := false, cancelled := true } }

/-- `checkDeadline`; a timer that is set again stays on. -/
def checkDeadline : Option (State E T R) :=
  if s.call.timer then
    match remainingMs s.system.world s.call.context with
    | some remaining => if (Number.finite 0).lt remaining then some s else some (resolve s)
    | none => some (resolve s)
  else none

def onAbort : Option (State E T R) :=
  if s.call.listening = true ∧ s.system.world.aborted s.call.context.signal = true then
    some { s with call := { s.call with listening := false, cancelled := true } }
  else none

/-- The race is over: what there is of the results is returned. -/
def resume : Option (State E T R) :=
  if s.call.returned.isNone = true ∧ (s.call.cancelled = true ∨ s.call.results.all Option.isSome = true) then
    some { s with
      call := { s.call with timer := false, listening := false, returned := some ⟨s.call.results, s.system.world⟩ } }
  else none

end Operations

inductive Action (E T R : Type) where
  | surroundings (action : ContextDerivations.Action E)
  | settle (operation : Nat) (outcome : Except R T)
  | observe (index : Nat)
  | checkDeadline
  | onAbort
  | resume

def step {E T R : Type} (s : State E T R) : Action E T R → Option (State E T R)
  | .surroundings action => (ContextDerivations.step s.system action).map fun system => { s with system }
  | .settle operation outcome => settle s operation outcome
  | .observe index => observe s index
  | .checkDeadline => checkDeadline s
  | .onAbort => onAbort s
  | .resume => resume s

section Reports
variable {E T R : Type} {s t : State E T R}

def reached (now : ℚ) : Number → Bool
  | .finite deadline => decide (deadline ≤ now)
  | .negInfinity => true
  | _ => false

/-- The context was aborted, or its deadline had passed. -/
def Ended (w : World E) (context : AnyContext) : Prop :=
  w.aborted context.signal = true ∨ ∃ deadline, context.deadline = some deadline ∧ reached w.now deadline = true

def Unmeasured (context : AnyContext) : Prop := context.deadline = some .nan

/-- One entry for each operation, in order, and what an entry says is so. -/
structure Truthful (operation : Nat → Option (Except R T)) (context : AnyContext) (operations : List Nat)
    (returned : Return E T R) : Prop where
  length : returned.results.length = operations.length
  defined : ∀ (i : Nat) (result : SettledResult T R), returned.results[i]? = some (some result) →
    ∃ (n : Nat) (outcome : Except R T),
      operations[i]? = some n ∧ operation n = some outcome ∧ result = record outcome
  undefined : ∀ i : Nat, returned.results[i]? = some none → Ended returned.world context ∨ Unmeasured context

theorem cancelled_iff (w : World E) (context : AnyContext) : cancelled w context = true ↔ Ended w context := by
  unfold cancelled Ended
  rw [Bool.or_eq_true]
  cases context.deadline with
  | none => simp
  | some deadline => cases deadline <;> simp [reached]

theorem remaining_ended {w : World E} {context : AnyContext} {remaining : Number}
    (left : remainingMs w context = some remaining) (expired : (Number.finite 0).lt remaining = false) :
    Ended w context ∨ Unmeasured context := by
  unfold remainingMs at left
  obtain ⟨deadline, own, same⟩ := Option.map_eq_some_iff.mp left
  cases deadline with
  | nan => exact .inr own
  | negInfinity => exact .inl (.inr ⟨_, own, rfl⟩)
  | posInfinity =>
    subst same
    cases expired
  | finite deadline =>
    subst same
    refine .inl (.inr ⟨_, own, ?_⟩)
    simp only [Number.lt, decide_eq_false_iff_not, lt_max_iff, lt_irrefl, false_or, sub_pos, not_lt] at expired
    exact decide_eq_true expired

theorem ended_grown {v w : World E} {context : AnyContext} (grown : Grown v w) (known : context.signal < v.count)
    (ended : Ended v context) : Ended w context := by
  rcases ended with aborted | ⟨deadline, own, passed⟩
  · left
    obtain ⟨reason, found⟩ := Option.isSome_iff_exists.mp aborted
    rw [World.aborted, (grown.reason _ reason known found).1]
    rfl
  · refine .inr ⟨deadline, own, ?_⟩
    cases deadline with
    | finite deadline =>
      simp only [reached, decide_eq_true_eq] at passed ⊢
      exact le_trans passed grown.now
    | _ => exact passed

/-- The results so far, and what has made the call stop waiting. -/
structure Waiting (context : AnyContext) (operations : List Nat) (s : State E T R) : Prop where
  same : s.call.context = context ∧ s.call.operations = operations
  known : context.signal < s.system.world.count
  timed : s.call.timer = true → context.deadline ≠ none
  length : s.call.results.length = operations.length
  filled : ∀ (i : Nat) (result : SettledResult T R), s.call.results[i]? = some (some result) →
    ∃ (n : Nat) (outcome : Except R T), operations[i]? = some n ∧ s.operation n = some outcome ∧ result = record outcome
  ended : s.call.cancelled = true → Ended s.system.world context ∨ Unmeasured context
  returned : ∀ returned, s.call.returned = some returned → Truthful s.operation context operations returned

theorem start_waiting {system : System E} {operation : Nat → Option (Except R T)} {context : AnyContext}
    (operations : List Nat) (known : context.signal < system.world.count) :
    Waiting context operations (settleWithinDeadline system operation context operations) := by
  have blank : ∀ (i : Nat) (result : SettledResult T R),
      (operations.map fun _ => (none : Option (SettledResult T R)))[i]? ≠ some (some result) := by
    intro i result found
    rw [List.getElem?_map, Option.map_eq_some_iff] at found
    obtain ⟨n, _, blank⟩ := found
    cases blank
  unfold settleWithinDeadline
  dsimp only
  split
  · rename_i none_given
    refine ⟨⟨rfl, rfl⟩, known, ?_, List.length_map _, ?_, ?_, ?_⟩
    · intro armed
      cases armed
    · exact fun i result found => absurd found (blank i result)
    · intro resolved
      cases resolved
    · intro returned same
      cases same
      refine ⟨List.length_map _, fun i result found => absurd found (blank i result), ?_⟩
      intro i found
      simp [none_given] at found
  · split
    · rename_i already
      refine ⟨⟨rfl, rfl⟩, known, ?_, List.length_map _, ?_, ?_, ?_⟩
      · intro armed
        cases armed
      · exact fun i result found => absurd found (blank i result)
      · intro resolved
        cases resolved
      · intro returned same
        cases same
        refine ⟨List.length_map _, fun i result found => absurd found (blank i result), ?_⟩
        exact fun _ _ => .inl ((cancelled_iff _ _).mp already)
    · refine ⟨⟨rfl, rfl⟩, known, ?_, List.length_map _, ?_, ?_, ?_⟩
      · intro armed without
        rw [remainingMs, Option.isSome_map, without] at armed
        cases armed
      · exact fun i result found => absurd found (blank i result)
      · exact fun aborted => .inl (.inl aborted)
      · intro returned same
        cases same

theorem truthful_kept {operation later : Nat → Option (Except R T)} {context : AnyContext} {operations : List Nat}
    {returned : Return E T R} (truthful : Truthful operation context operations returned)
    (kept : ∀ n outcome, operation n = some outcome → later n = some outcome) :
    Truthful later context operations returned := by
  refine ⟨truthful.length, ?_, truthful.undefined⟩
  intro i result found
  obtain ⟨n, outcome, here, settled, same⟩ := truthful.defined i result found
  exact ⟨n, outcome, here, kept n outcome settled, same⟩

theorem resolve_waiting {context : AnyContext} {operations : List Nat} (waiting : Waiting context operations s)
    (ended : Ended s.system.world context ∨ Unmeasured context) : Waiting context operations (resolve s) :=
  { waiting with
    timed := by
      intro armed
      cases armed
    ended := fun _ => ended }

theorem step_waiting {context : AnyContext} {operations : List Nat} {a : Action E T R}
    (waiting : Waiting context operations s) (next : step s a = some t) : Waiting context operations t := by
  obtain ⟨own, asked⟩ := waiting.same
  cases a with
  | surroundings action =>
    obtain ⟨system, moved, same⟩ := Option.map_eq_some_iff.mp next
    cases same
    have grown := step_grown moved
    refine { waiting with known := Nat.lt_of_lt_of_le waiting.known grown.count, ended := ?_ }
    intro resolved
    exact (waiting.ended resolved).imp_left (ended_grown grown waiting.known)
  | settle n outcome =>
    simp only [step, settle] at next
    split at next
    · rename_i pending
      cases next
      have kept : ∀ m result, s.operation m = some result →
          Function.update s.operation n (some outcome) m = some result := by
        intro m result settled
        rcases eq_or_ne m n with rfl | other
        · rw [pending] at settled
          cases settled
        · rw [Function.update_of_ne other]
          exact settled
      refine { waiting with filled := ?_, returned := fun returned same => truthful_kept (waiting.returned returned same) kept }
      intro i result found
      obtain ⟨m, before, here, settled, same⟩ := waiting.filled i result found
      exact ⟨m, before, here, kept m before settled, same⟩
    · cases next
  | observe index =>
    simp only [step, observe] at next
    split at next
    · cases next
    · rename_i n here
      rw [asked] at here
      obtain ⟨outcome, settled, same⟩ := Option.map_eq_some_iff.mp next
      cases same
      refine { waiting with length := (List.length_set ..).trans waiting.length, filled := ?_ }
      intro i result found
      rcases eq_or_ne i index with rfl | other
      · have inside : i < s.call.results.length := by
          rw [waiting.length]
          exact (List.getElem?_eq_some_iff.mp here).1
        rw [List.getElem?_set_self inside] at found
        cases found
        exact ⟨n, outcome, here, settled, rfl⟩
      · rw [List.getElem?_set_ne other.symm] at found
        exact waiting.filled i result found
  | checkDeadline =>
    simp only [step, checkDeadline] at next
    split at next
    · rename_i armed
      split at next
      · rename_i remaining left
        rw [own] at left
        split at next
        · cases next
          exact waiting
        · rename_i expired
          cases next
          exact resolve_waiting waiting (remaining_ended left (by simpa using expired))
      · rename_i without
        rw [own, remainingMs, Option.map_eq_none_iff] at without
        exact absurd without (waiting.timed armed)
    · cases next
  | onAbort =>
    simp only [step, onAbort] at next
    split at next
    · rename_i heard
      rw [own] at heard
      cases next
      exact { waiting with ended := fun _ => .inl (.inl heard.2) }
    · cases next
  | resume =>
    simp only [step, resume] at next
    split at next
    · rename_i ready
      cases next
      refine { waiting with timed := (fun armed => by cases armed), returned := ?_ }
      intro returned same
      cases same
      refine ⟨waiting.length, waiting.filled, ?_⟩
      intro i missing
      rcases ready.2 with resolved | complete
      · exact waiting.ended resolved
      · have present := List.all_eq_true.mp complete none (List.mem_of_getElem? missing)
        cases present
    · cases next

end Reports

/- Whatever happens around a call: what it returns has one entry for each
   operation, in order; an entry that is defined is the outcome of its operation;
   and one is left undefined only if the context was aborted or its deadline had
   passed at that moment, or if its deadline is not a number. -/
theorem settled_truthfully {E T R : Type} {system : System E} (reach : Reachable system) {derived : Derived}
    (member : derived ∈ system.contexts) (operations : List Nat) (operation : Nat → Option (Except R T))
    {s : State E T R} (run : Steps step Any (settleWithinDeadline system operation derived.context operations) s) :
    ∀ returned, s.call.returned = some returned →
      Truthful s.operation derived.context operations returned := by
  have known := reachable_known reach derived member
  have waiting := steps_invariant (Waiting derived.context operations)
    (fun _ _ _ waiting _ next => step_waiting waiting next) run (start_waiting operations known)
  exact waiting.returned

def limited (deadline : Number) : List (ContextDerivations.Action Nat) :=
  [.newSignal, .newContext false 0, .derive 0 (.withDeadline (some deadline))]

/-- Of two operations one settles before the deadline; the timer wakes up too early, and once more. -/
def oneInTime : List (Action Nat Nat Nat) :=
  [.settle 1 (.ok 7), .observe 1, .checkDeadline, .surroundings (.elapse 5), .checkDeadline, .resume]

theorem settled_truthfully_late : ∃ (derived : Derived) (s : State Nat Nat Nat) (returned : Return Nat Nat Nat),
    s.call.returned = some returned ∧ returned.results = [none, some (.fulfilled 7)] ∧
      Truthful s.operation derived.context [0, 1] returned := by
  have evaluated : ((exec ContextDerivations.step {} (limited (.finite 5))).any fun system =>
      (system.contexts[1]?).any fun derived =>
      (exec step (settleWithinDeadline system (fun _ => none) derived.context [0, 1]) oneInTime).any fun s =>
      s.call.returned.any fun returned => decide (returned.results = [none, some (.fulfilled 7)])) = true := by
    decide +kernel
  simp only [Option.any_eq_true, decide_eq_true_eq] at evaluated
  obtain ⟨system, made, derived, found, s, run, returned, left, results⟩ := evaluated
  exact ⟨derived, s, returned, left, results,
    settled_truthfully (exec_steps made) (List.mem_of_getElem? found) [0, 1] _ (exec_steps run) returned left⟩

/-- The timer of a call wakes up before the one of the context, whose deadline is not a number. -/
theorem unmeasured_returns : ∃ (system : System Nat) (derived : Derived) (s : State Nat Nat Nat)
    (returned : Return Nat Nat Nat), Reachable system ∧ derived ∈ system.contexts ∧
      Steps step Any (settleWithinDeadline system (fun _ => none) derived.context [0]) s ∧
      s.call.returned = some returned ∧ returned.results = [none] ∧ ¬Ended returned.world derived.context := by
  obtain ⟨system, made, derived, found, s, run, returned, left, results, running⟩ : ∃ system : System Nat,
      exec ContextDerivations.step {} (limited .nan) = some system ∧ ∃ derived : Derived,
      system.contexts[1]? = some derived ∧ ∃ s : State Nat Nat Nat,
      exec step (settleWithinDeadline system (fun _ => none) derived.context [0]) [.checkDeadline, .resume] = some s ∧
      ∃ returned, s.call.returned = some returned ∧ returned.results = [none] ∧
      cancelled returned.world derived.context = false := by
    exact ⟨_, rfl, _, rfl, _, rfl, _, rfl, rfl, rfl⟩
  refine ⟨system, derived, s, returned, exec_steps made, List.mem_of_getElem? found, exec_steps run, left, results, ?_⟩
  rw [← cancelled_iff, running]
  simp

end Settlements
