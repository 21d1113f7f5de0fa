import TsServiceLib.Service.ComponentStops
import Mathlib.Data.List.Nodup

/-!
What the ledger of stops keeps. The operation a component has in the map is
the only one that is not rejected, so a component is never asked to stop while
an earlier stop is pending or has been fulfilled; a component leaves the list
of started ones exactly when a stop of it is fulfilled; and a joined promise
is only fulfilled when its component has stopped.
-/
namespace Services
namespace Ledger

def Rejected (operation : Operation) : Prop := ∃ failure, operation.status = .settled (some failure)

/-- The component has had a fulfilled stop. -/
def Stopped (l : Ledger) (c : Nat) : Prop :=
  ∃ i, i < l.operations ∧ (l.operation i).component = c ∧ (l.operation i).admissionOnly = false ∧
    (l.operation i).status = .settled none

/-- Whether a stop asked for with `admission` is one of admission only. -/
def only (l : Ledger) (c : Nat) (admission : Bool) : Bool := admission && l.hasStopAdmission c

/-- A promise of a stop of the component. -/
def Serves (l : Ledger) (ref : Ref) (c : Nat) (admissionOnly : Bool) : Prop :=
  match ref with
  | .operation i => i < l.operations ∧ (l.operation i).component = c ∧
      (l.operation i).admissionOnly = admissionOnly
  | .join j => j < l.joins ∧ (l.join j).component = c ∧ l.only c (l.join j).admission = admissionOnly

/-- What a join knows about its component. -/
def Tracks (l : Ledger) (join : Join) : Prop :=
  match join.status with
  | .catching i => l.Serves (.operation i) join.component (l.only join.component join.admission)
  | .following ref => l.Serves ref join.component (l.only join.component join.admission)
  | .settled none => l.only join.component join.admission = false → l.Stopped join.component
  | .settled (some _) => True

/-- The invariant of the ledger. `allowed` is what the runtime knows of every
    component whose stop has been asked for. -/
structure Kept (allowed : Nat → Prop) (l : Ledger) : Prop where
  completed_nodup : l.completed.Nodup
  started_sublist : l.started.Sublist l.completed
  started : ∀ c, c ∈ l.started ↔ c ∈ l.completed ∧ ¬l.Stopped c
  asked : ∀ i, i < l.operations → (l.operation i).component ∈ l.completed
  current : ∀ i, i < l.operations → (l.operation i).admissionOnly = false →
    ¬Rejected (l.operation i) → l.componentStops (l.operation i).component = some i
  mapped : ∀ c i, l.componentStops c = some i →
    l.Serves (.operation i) c false ∧ ¬Rejected (l.operation i)
  admission_mapped : ∀ c i, l.admissionStops c = some i → l.Serves (.operation i) c true
  joined : ∀ j, j < l.joins → (l.join j).component ∈ l.completed ∧ l.Tracks (l.join j)
  permitted : ∀ i, i < l.operations → (l.operation i).admissionOnly = false →
    allowed (l.operation i).component
  permitted_join : ∀ j, j < l.joins → l.only (l.join j).component (l.join j).admission = false →
    allowed (l.join j).component

/-- How the ledger may change: what is settled stays, the started components
    get fewer. -/
structure Grown (l l' : Ledger) : Prop where
  components : l'.components = l.components
  completed : l'.completed = l.completed
  started : l'.started.Sublist l.started
  operations : l.operations ≤ l'.operations
  joins : l.joins ≤ l'.joins
  operation : ∀ i, i < l.operations → (l'.operation i).component = (l.operation i).component ∧
    (l'.operation i).admissionOnly = (l.operation i).admissionOnly ∧
    ∀ failure, (l.operation i).status = .settled failure → (l'.operation i).status = .settled failure
  join : ∀ j, j < l.joins → (l'.join j).component = (l.join j).component ∧
    (l'.join j).admission = (l.join j).admission ∧
    ∀ failure, (l.join j).status = .settled failure → (l'.join j).status = .settled failure

section Growth
variable {l l' l'' : Ledger}

theorem grown_refl (l : Ledger) : Grown l l where
  components := rfl
  completed := rfl
  started := List.Sublist.refl _
  operations := Nat.le_refl _
  joins := Nat.le_refl _
  operation _ _ := ⟨rfl, rfl, fun _ h => h⟩
  join _ _ := ⟨rfl, rfl, fun _ h => h⟩

theorem grown_trans (first : Grown l l') (second : Grown l' l'') : Grown l l'' where
  components := second.components.trans first.components
  completed := second.completed.trans first.completed
  started := second.started.trans first.started
  operations := Nat.le_trans first.operations second.operations
  joins := Nat.le_trans first.joins second.joins
  operation i inside := by
    obtain ⟨component, only, settled⟩ := first.operation i inside
    obtain ⟨component', only', settled'⟩ := second.operation i (Nat.lt_of_lt_of_le inside first.operations)
    exact ⟨component'.trans component, only'.trans only, fun f h => settled' f (settled f h)⟩
  join j inside := by
    obtain ⟨component, admission, settled⟩ := first.join j inside
    obtain ⟨component', admission', settled'⟩ := second.join j (Nat.lt_of_lt_of_le inside first.joins)
    exact ⟨component'.trans component, admission'.trans admission, fun f h => settled' f (settled f h)⟩

theorem grown_only (grown : Grown l l') (c : Nat) (admission : Bool) :
    l'.only c admission = l.only c admission := by
  simp only [only, hasStopAdmission, grown.components]

theorem grown_stopped (grown : Grown l l') {c : Nat} (stopped : l.Stopped c) : l'.Stopped c := by
  obtain ⟨i, inside, component, full, settled⟩ := stopped
  obtain ⟨component', only', kept⟩ := grown.operation i inside
  exact ⟨i, Nat.lt_of_lt_of_le inside grown.operations, component'.trans component, only'.trans full,
    kept none settled⟩

theorem grown_serves (grown : Grown l l') {ref : Ref} {c : Nat} {b : Bool} (serves : l.Serves ref c b) :
    l'.Serves ref c b := by
  cases ref with
  | operation i =>
    obtain ⟨inside, component, full⟩ := serves
    obtain ⟨component', only', _⟩ := grown.operation i inside
    exact ⟨Nat.lt_of_lt_of_le inside grown.operations, component'.trans component, only'.trans full⟩
  | join j =>
    obtain ⟨inside, component, full⟩ := serves
    obtain ⟨component', admission', _⟩ := grown.join j inside
    refine ⟨Nat.lt_of_lt_of_le inside grown.joins, component'.trans component, ?_⟩
    rw [admission', grown_only grown]
    exact full

theorem grown_tracks (grown : Grown l l') {join : Join} (tracks : l.Tracks join) : l'.Tracks join := by
  unfold Tracks at *
  rw [grown_only grown]
  split
  · rename_i i status
    rw [status] at tracks
    exact grown_serves grown tracks
  · rename_i ref status
    rw [status] at tracks
    exact grown_serves grown tracks
  · rename_i status
    rw [status] at tracks
    exact fun full => grown_stopped grown (tracks full)
  · trivial

/-- A fulfilled promise of a full stop means that the component has stopped. -/
theorem fulfilled_stopped {allowed : Nat → Prop} (kept : Kept allowed l) {ref : Ref} {c : Nat}
    (serves : l.Serves ref c false) (outcome : l.outcome ref = some none) : l.Stopped c := by
  cases ref with
  | operation i =>
    obtain ⟨inside, component, full⟩ := serves
    simp only [Ledger.outcome] at outcome
    split at outcome
    · rename_i failure status
      cases outcome
      exact ⟨i, inside, component, full, status⟩
    · cases outcome
  | join j =>
    obtain ⟨inside, component, full⟩ := serves
    simp only [Ledger.outcome] at outcome
    split at outcome
    · rename_i failure status
      cases outcome
      have tracks := (kept.joined j inside).2
      unfold Tracks at tracks
      rw [status] at tracks
      rw [← component]
      apply tracks
      rw [component]
      exact full
    · cases outcome

theorem stopped_not_started {allowed : Nat → Prop} (kept : Kept allowed l) {c : Nat}
    (stopped : l.Stopped c) : c ∉ l.started :=
  fun mem => ((kept.started c).mp mem).2 stopped

theorem kept_mono {allowed permitted : Nat → Prop} (kept : Kept allowed l)
    (implied : ∀ c ∈ l.completed, allowed c → permitted c) : Kept permitted l :=
  { kept with
    permitted := fun i inside full => implied _ (kept.asked i inside) (kept.permitted i inside full)
    permitted_join := fun j inside full =>
      implied _ (kept.joined j inside).1 (kept.permitted_join j inside full) }

end Growth

section Asking
variable {allowed : Nat → Prop} {l : Ledger}

/-- The ledger with a new operation, entered in its map. -/
def withOperation (l : Ledger) (c : Nat) (context : ContextRef) (admissionOnly : Bool) : Ledger :=
  (l.openOperation ⟨c, admissionOnly, context, .queued⟩).setPending admissionOnly c (some l.operations)

theorem withOperation_eq (c : Nat) (context : ContextRef) (admissionOnly : Bool) :
    l.withOperation c context admissionOnly = { l with
      operation := Function.update l.operation l.operations ⟨c, admissionOnly, context, .queued⟩
      operations := l.operations + 1
      componentStops := if admissionOnly then l.componentStops
        else Function.update l.componentStops c (some l.operations)
      admissionStops := if admissionOnly then Function.update l.admissionStops c (some l.operations)
        else l.admissionStops } := by
  cases admissionOnly with
  | true => rfl
  | false => rfl

theorem withOperation_grown (c : Nat) (context : ContextRef) (admissionOnly : Bool) :
    Grown l (l.withOperation c context admissionOnly) := by
  have old : ∀ (i : Nat) (operation : Operation), i < l.operations →
      Function.update l.operation l.operations operation i = l.operation i := by
    intro i operation inside
    apply Function.update_of_ne
    omega
  rw [withOperation_eq]
  exact {
    components := rfl
    completed := rfl
    started := List.Sublist.refl _
    operations := Nat.le_succ _
    joins := Nat.le_refl _
    operation := by
      intro i inside
      simp only [old i _ inside]
      exact ⟨trivial, trivial, fun _ h => h⟩
    join := fun j _ => ⟨rfl, rfl, fun _ h => h⟩ }

theorem withOperation_cases {c : Nat} {context : ContextRef} {admissionOnly : Bool} {i : Nat}
    (inside : i < (l.withOperation c context admissionOnly).operations) :
    (i < l.operations ∧ (l.withOperation c context admissionOnly).operation i = l.operation i) ∨
      (i = l.operations ∧ (l.withOperation c context admissionOnly).operation i =
        ⟨c, admissionOnly, context, .queued⟩) := by
  rw [withOperation_eq] at inside ⊢
  simp only at inside ⊢
  rcases Nat.lt_or_ge i l.operations with older | newer
  · left
    refine ⟨older, Function.update_of_ne ?_ _ _⟩
    omega
  · right
    have same : i = l.operations := by omega
    exact ⟨same, same ▸ Function.update_self _ _ _⟩

theorem withOperation_stopped {c : Nat} {context : ContextRef} {admissionOnly : Bool} (c' : Nat) :
    (l.withOperation c context admissionOnly).Stopped c' ↔ l.Stopped c' := by
  constructor
  · rintro ⟨i, inside, component, full, settled⟩
    rcases withOperation_cases inside with ⟨older, same⟩ | ⟨_, new⟩
    · rw [same] at component full settled
      exact ⟨i, older, component, full, settled⟩
    · rw [new] at settled
      cases settled
  · exact grown_stopped (withOperation_grown c context admissionOnly)

theorem withOperation_kept (kept : Kept allowed l) {c : Nat} {context : ContextRef}
    {admissionOnly : Bool} (vacant : l.pending admissionOnly c = none) (completed : c ∈ l.completed)
    (permitted : admissionOnly = false → allowed c) :
    Kept allowed (l.withOperation c context admissionOnly) := by
  have grown := withOperation_grown (l := l) c context admissionOnly
  have eq := withOperation_eq (l := l) c context admissionOnly
  have new_serves : (l.withOperation c context admissionOnly).Serves (.operation l.operations) c admissionOnly := by
    rw [eq]
    simp [Serves]
  constructor
  · rw [grown.completed]
    exact kept.completed_nodup
  · rw [eq]
    exact kept.started_sublist
  · intro c'
    rw [withOperation_stopped, grown.completed, eq]
    exact kept.started c'
  · intro i inside
    rw [grown.completed]
    rcases withOperation_cases inside with ⟨older, same⟩ | ⟨_, new⟩
    · rw [same]
      exact kept.asked i older
    · rw [new]
      exact completed
  · intro i inside full alive
    rcases withOperation_cases inside with ⟨older, same⟩ | ⟨last, new⟩
    · rw [same] at full alive ⊢
      have entry := kept.current i older full alive
      rw [eq]
      cases admissionOnly with
      | true => exact entry
      | false =>
        simp only [Bool.false_eq_true, if_false]
        rw [Function.update_of_ne]
        · exact entry
        · intro clash
          rw [clash] at entry
          simp only [pending, Bool.false_eq_true, if_false] at vacant
          rw [vacant] at entry
          cases entry
    · rw [new] at full ⊢
      simp only at full
      subst full
      rw [eq, last]
      simp
  · intro c' i entry
    rw [eq] at entry
    cases admissionOnly with
    | true =>
      obtain ⟨serves, alive⟩ := kept.mapped c' i entry
      refine ⟨grown_serves grown serves, ?_⟩
      rw [eq]
      simp only
      rw [Function.update_of_ne (by have := serves.1; omega)]
      exact alive
    | false =>
      simp only [Bool.false_eq_true, if_false, Function.update_apply] at entry
      split at entry
      · rename_i same
        cases entry
        rw [same]
        refine ⟨new_serves, ?_⟩
        rintro ⟨failure, settled⟩
        rw [eq] at settled
        simp at settled
      · obtain ⟨serves, alive⟩ := kept.mapped c' i entry
        refine ⟨grown_serves grown serves, ?_⟩
        rw [eq]
        simp only
        rw [Function.update_of_ne (by have := serves.1; omega)]
        exact alive
  · intro c' i entry
    rw [eq] at entry
    cases admissionOnly with
    | true =>
      simp only [if_true, Function.update_apply] at entry
      split at entry
      · rename_i same
        cases entry
        rw [same]
        exact new_serves
      · exact grown_serves grown (kept.admission_mapped c' i entry)
    | false => exact grown_serves grown (kept.admission_mapped c' i entry)
  · intro j inside
    rw [grown.completed]
    have same : (l.withOperation c context admissionOnly).join = l.join := by rw [eq]
    have fewer : j < l.joins := by
      rw [eq] at inside
      exact inside
    rw [same]
    exact ⟨(kept.joined j fewer).1, grown_tracks grown (kept.joined j fewer).2⟩
  · intro i inside full
    rcases withOperation_cases inside with ⟨older, same⟩ | ⟨_, new⟩
    · rw [same] at full ⊢
      exact kept.permitted i older full
    · rw [new] at full ⊢
      exact permitted full
  · intro j inside full
    rw [grown_only grown] at full
    rw [eq] at inside full ⊢
    exact kept.permitted_join j inside full

theorem openJoin_grown (join : Join) : Grown l (l.openJoin join) where
  components := rfl
  completed := rfl
  started := List.Sublist.refl _
  operations := Nat.le_refl _
  joins := Nat.le_succ _
  operation _ _ := ⟨rfl, rfl, fun _ h => h⟩
  join j inside := by
    have old : (l.openJoin join).join j = l.join j := by
      apply Function.update_of_ne
      omega
    rw [old]
    exact ⟨rfl, rfl, fun _ h => h⟩

theorem openJoin_kept (kept : Kept allowed l) {join : Join} (completed : join.component ∈ l.completed)
    (tracks : l.Tracks join) (permitted : l.only join.component join.admission = false →
      allowed join.component) : Kept allowed (l.openJoin join) := by
  have grown := openJoin_grown (l := l) join
  have cases_of : ∀ j, j < l.joins + 1 → (j < l.joins ∧ (l.openJoin join).join j = l.join j) ∨
      (l.openJoin join).join j = join := by
    intro j inside
    rcases Nat.lt_or_ge j l.joins with older | newer
    · left
      refine ⟨older, Function.update_of_ne ?_ _ _⟩
      omega
    · right
      have same : j = l.joins := by omega
      exact same ▸ Function.update_self _ _ _
  exact { kept with
    joined := by
      intro j inside
      rcases cases_of j inside with ⟨older, same⟩ | new
      · rw [same]
        exact ⟨(kept.joined j older).1, grown_tracks grown (kept.joined j older).2⟩
      · rw [new]
        exact ⟨completed, grown_tracks grown tracks⟩
    permitted_join := by
      intro j inside full
      rw [grown_only grown] at full
      rcases cases_of j inside with ⟨older, same⟩ | new
      · rw [same] at full ⊢
        exact kept.permitted_join j older full
      · rw [new] at full ⊢
        exact permitted full }

theorem pending_serves (kept : Kept allowed l) {admissionOnly : Bool} {c i : Nat}
    (found : l.pending admissionOnly c = some i) : l.Serves (.operation i) c admissionOnly := by
  cases admissionOnly with
  | true => exact kept.admission_mapped c i found
  | false => exact (kept.mapped c i found).1

/-- Asking for a stop keeps the ledger and gives a promise of that stop. -/
theorem stopComponent_kept (kept : Kept allowed l) {c : Nat} (context : ContextRef) {admission : Bool}
    (completed : c ∈ l.completed) (permitted : l.only c admission = false → allowed c) :
    Kept allowed (l.stopComponent c context admission).2 ∧
      Grown l (l.stopComponent c context admission).2 ∧
      (l.stopComponent c context admission).2.Serves (l.stopComponent c context admission).1 c
        (l.only c admission) := by
  unfold stopComponent
  simp only
  split
  · rename_i i found
    have serves := pending_serves kept found
    split
    · exact ⟨kept, grown_refl l, serves⟩
    · refine ⟨openJoin_kept kept completed serves permitted, openJoin_grown _, ?_⟩
      refine ⟨Nat.lt_succ_self _, ?_, ?_⟩
      · simp [openJoin]
      · rw [grown_only (openJoin_grown _)]
        simp [openJoin]
  · rename_i vacant
    refine ⟨withOperation_kept kept vacant completed permitted, withOperation_grown _ _ _, ?_⟩
    change (l.withOperation c context (l.only c admission)).Serves (.operation l.operations) c _
    rw [withOperation_eq]
    simp [Serves]

end Asking

section Statuses
variable {allowed : Nat → Prop} {l : Ledger}

theorem setStatus_operation (i : Nat) (status : OperationStatus) (k : Nat) :
    (l.setStatus i status).operation k =
      { l.operation k with status := if k = i then status else (l.operation k).status } := by
  simp only [setStatus, Function.update_apply]
  split
  · rename_i same
    rw [same]
  · rfl

theorem setStatus_grown {i : Nat} {status : OperationStatus}
    (open_status : ∀ failure, (l.operation i).status ≠ .settled failure) : Grown l (l.setStatus i status) where
  components := rfl
  completed := rfl
  started := List.Sublist.refl _
  operations := Nat.le_refl _
  joins := Nat.le_refl _
  operation k _ := by
    rw [setStatus_operation]
    refine ⟨rfl, rfl, ?_⟩
    intro failure settled
    have other : k ≠ i := fun same => open_status failure (same ▸ settled)
    simp only [other, if_false]
    exact settled
  join _ _ := ⟨rfl, rfl, fun _ h => h⟩

theorem setStatus_kept (kept : Kept allowed l) {i : Nat} {status : OperationStatus}
    (open_status : ∀ failure, (l.operation i).status ≠ .settled failure)
    (still_open : ∀ failure, status ≠ .settled failure) : Kept allowed (l.setStatus i status) := by
  have grown : Grown l (l.setStatus i status) := setStatus_grown open_status
  have settled_iff : ∀ k failure, ((l.setStatus i status).operation k).status = .settled failure ↔
      (l.operation k).status = .settled failure := by
    intro k failure
    rw [setStatus_operation]
    simp only
    split
    · rename_i same
      rw [same]
      exact ⟨fun h => absurd h (still_open failure), fun h => absurd h (open_status failure)⟩
    · exact Iff.rfl
  have rejected_iff : ∀ k, Rejected ((l.setStatus i status).operation k) ↔ Rejected (l.operation k) := by
    intro k
    exact exists_congr fun failure => settled_iff k (some failure)
  have stopped_iff : ∀ c, (l.setStatus i status).Stopped c ↔ l.Stopped c := by
    intro c
    constructor
    · rintro ⟨k, inside, component, full, settled⟩
      rw [settled_iff] at settled
      rw [setStatus_operation] at component full
      exact ⟨k, inside, component, full, settled⟩
    · exact grown_stopped grown
  exact { kept with
    started := fun c => (kept.started c).trans (and_congr_right fun _ => not_congr (stopped_iff c).symm)
    asked := fun k inside => by
      rw [setStatus_operation]
      exact kept.asked k inside
    current := fun k inside full alive => by
      rw [rejected_iff] at alive
      rw [setStatus_operation] at full ⊢
      exact kept.current k inside full alive
    mapped := fun c k entry => by
      obtain ⟨serves, alive⟩ := kept.mapped c k entry
      exact ⟨grown_serves grown serves, fun rejected => alive ((rejected_iff k).mp rejected)⟩
    admission_mapped := fun c k entry => grown_serves grown (kept.admission_mapped c k entry)
    joined := fun j inside => ⟨(kept.joined j inside).1, grown_tracks grown (kept.joined j inside).2⟩
    permitted := fun k inside full => by
      rw [setStatus_operation] at full ⊢
      exact kept.permitted k inside full }

/-- The operation `i` is settled; the lists may change as its handlers say. -/
structure Settling (l after : Ledger) (i : Nat) (failure : Option Failure) : Prop where
  components : after.components = l.components
  completed : after.completed = l.completed
  started : after.started.Sublist l.started
  operations : after.operations = l.operations
  operation : ∀ k, after.operation k =
    { l.operation k with status := if k = i then .settled failure else (l.operation k).status }
  join : after.join = l.join
  joins : after.joins = l.joins

section Settling
variable {after : Ledger} {i : Nat} {failure : Option Failure} (settling : Settling l after i failure)
  (answered : (l.operation i).status = .answered failure)
include settling answered

theorem settling_grown : Grown l after where
  components := settling.components
  completed := settling.completed
  started := settling.started
  operations := Nat.le_of_eq settling.operations.symm
  joins := Nat.le_of_eq settling.joins.symm
  operation k _ := by
    rw [settling.operation]
    refine ⟨rfl, rfl, ?_⟩
    intro outcome settled
    have other : k ≠ i := by
      intro same
      rw [same, answered] at settled
      cases settled
    simp only [other, if_false]
    exact settled
  join j _ := by
    rw [settling.join]
    exact ⟨rfl, rfl, fun _ h => h⟩

theorem settling_stopped (inside : i < l.operations) (c : Nat) : after.Stopped c ↔ l.Stopped c ∨
    (failure = none ∧ (l.operation i).admissionOnly = false ∧ c = (l.operation i).component) := by
  constructor
  · rintro ⟨k, there, component, full, settled⟩
    rw [settling.operation] at component full settled
    rcases eq_or_ne k i with same | other
    · right
      subst same
      simp only [if_true] at settled
      cases settled
      exact ⟨rfl, full, component.symm⟩
    · left
      simp only [other, if_false] at settled
      exact ⟨k, settling.operations ▸ there, component, full, settled⟩
  · intro stopped
    rcases stopped with before | ⟨fulfilled, full, same⟩
    · exact grown_stopped (settling_grown settling answered) before
    · refine ⟨i, settling.operations.symm ▸ inside, ?_⟩
      rw [settling.operation]
      simp [full, same, fulfilled]

theorem settling_rejected (k : Nat) :
    Rejected (after.operation k) ↔ Rejected (l.operation k) ∨ (k = i ∧ failure ≠ none) := by
  unfold Rejected
  rw [settling.operation]
  rcases eq_or_ne k i with same | other
  · subst same
    simp [answered, Option.ne_none_iff_exists']
  · simp [other]

theorem settling_kept (kept : Kept allowed l)
    (started : ∀ c, c ∈ after.started ↔ c ∈ l.completed ∧ ¬after.Stopped c)
    (current : ∀ k, k < l.operations → (l.operation k).admissionOnly = false →
      ¬Rejected (after.operation k) → after.componentStops (l.operation k).component = some k)
    (mapped : ∀ c k, after.componentStops c = some k →
      l.componentStops c = some k ∧ ¬(k = i ∧ failure ≠ none))
    (admission_mapped : ∀ c k, after.admissionStops c = some k → l.admissionStops c = some k) :
    Kept allowed after := by
  have grown := settling_grown settling answered
  constructor
  · rw [settling.completed]
    exact kept.completed_nodup
  · rw [settling.completed]
    exact settling.started.trans kept.started_sublist
  · rw [settling.completed]
    exact started
  · intro k there
    rw [settling.operation, settling.completed]
    exact kept.asked k (settling.operations ▸ there)
  · intro k there full alive
    rw [settling.operation] at full ⊢
    exact current k (settling.operations ▸ there) full alive
  · intro c k entry
    obtain ⟨before, other⟩ := mapped c k entry
    obtain ⟨serves, alive⟩ := kept.mapped c k before
    refine ⟨grown_serves grown serves, ?_⟩
    rw [settling_rejected settling answered]
    intro rejected
    rcases rejected with old | new
    · exact alive old
    · exact other new
  · intro c k entry
    exact grown_serves grown (kept.admission_mapped c k (admission_mapped c k entry))
  · intro j there
    have before := kept.joined j (settling.joins ▸ there)
    rw [settling.join, settling.completed]
    exact ⟨before.1, grown_tracks grown before.2⟩
  · intro k there full
    rw [settling.operation] at full ⊢
    exact kept.permitted k (settling.operations ▸ there) full
  · intro j there full
    rw [grown_only grown] at full
    rw [settling.join] at full ⊢
    exact kept.permitted_join j (settling.joins ▸ there) full

end Settling

theorem handled_settling (i : Nat) (failure : Option Failure) :
    Settling l ((l.handled i failure).setStatus i (.settled failure)) i failure := by
  have operation : ∀ k, ((l.handled i failure).setStatus i (.settled failure)).operation k =
      { l.operation k with status := if k = i then .settled failure else (l.operation k).status } := by
    intro k
    have same : (l.handled i failure).operation = l.operation := by
      unfold handled setPending
      grind
    rw [setStatus_operation, same]
  cases failure with
  | none =>
    unfold handled at operation ⊢
    simp only at operation ⊢
    split at operation
    · rename_i admissionOnly
      rw [if_pos admissionOnly]
      exact ⟨rfl, rfl, List.Sublist.refl _, rfl, operation, rfl, rfl⟩
    · rename_i full
      rw [if_neg full]
      exact ⟨rfl, rfl, List.erase_sublist, rfl, operation, rfl, rfl⟩
  | some f =>
    unfold handled setPending at operation ⊢
    simp only at operation ⊢
    split at operation
    · rename_i own
      rw [if_pos own]
      split at operation
      · rename_i admissionOnly
        rw [if_pos admissionOnly]
        exact ⟨rfl, rfl, List.Sublist.refl _, rfl, operation, rfl, rfl⟩
      · rename_i full
        rw [if_neg full]
        exact ⟨rfl, rfl, List.Sublist.refl _, rfl, operation, rfl, rfl⟩
    · rename_i other
      rw [if_neg other]
      exact ⟨rfl, rfl, List.Sublist.refl _, rfl, operation, rfl, rfl⟩

/-- The handlers of a fulfilled stop take its component off the started ones. -/
theorem settle_fulfilled (kept : Kept allowed l) {i : Nat} (inside : i < l.operations)
    (answered : (l.operation i).status = .answered none) :
    Kept allowed ((l.handled i none).setStatus i (.settled none)) := by
  have settling := handled_settling (l := l) i none
  have nodup : l.started.Nodup := kept.started_sublist.nodup kept.completed_nodup
  have stopped := settling_stopped settling answered inside
  have rejected := settling_rejected settling answered
  refine settling_kept settling answered kept ?_ ?_ ?_ ?_
  · intro c
    have before := kept.started c
    rw [stopped]
    simp only [handled, setStatus]
    split
    · rename_i admissionOnly
      rw [before]
      simp [admissionOnly]
    · rename_i full
      rw [Bool.not_eq_true] at full
      rw [nodup.mem_erase_iff, before]
      simp only [full, true_and, not_or]
      tauto
  · intro k there full alive
    rw [rejected] at alive
    have entry := kept.current k there full fun old => alive (.inl old)
    unfold handled
    simp only
    split
    · exact entry
    · exact entry
  · intro c k entry
    refine ⟨?_, by simp⟩
    unfold handled at entry
    simp only at entry
    split at entry
    · exact entry
    · exact entry
  · intro c k entry
    unfold handled at entry
    simp only at entry
    split at entry
    · exact entry
    · simp only [setStatus, Function.update_apply] at entry
      split at entry
      · cases entry
      · exact entry

/-- The handlers of a rejected stop take it out of its map. -/
theorem settle_rejected (kept : Kept allowed l) {i : Nat} {f : Failure} (inside : i < l.operations)
    (answered : (l.operation i).status = .answered (some f)) :
    Kept allowed ((l.handled i (some f)).setStatus i (.settled (some f))) := by
  have settling := handled_settling (l := l) i (some f)
  have stopped := settling_stopped settling answered inside
  have rejected := settling_rejected settling answered
  have alive : ¬Rejected (l.operation i) := by
    rintro ⟨failure, settled⟩
    rw [answered] at settled
    cases settled
  -- a full stop that is answered is still the one in the map
  have stops : ((l.handled i (some f)).setStatus i (.settled (some f))).componentStops =
      if (l.operation i).admissionOnly then l.componentStops
      else Function.update l.componentStops (l.operation i).component none := by
    unfold handled setPending
    simp only
    cases full : (l.operation i).admissionOnly with
    | true =>
      split
      · rfl
      · rfl
    | false =>
      have own : l.pending false (l.operation i).component = some i := kept.current i inside full alive
      rw [if_pos own]
      rfl
  refine settling_kept settling answered kept ?_ ?_ ?_ ?_
  · intro c
    have same : ((l.handled i (some f)).setStatus i (.settled (some f))).started = l.started := by
      unfold handled setPending setStatus
      grind
    rw [stopped, same]
    simpa using kept.started c
  · intro k there full still
    rw [rejected] at still
    have entry := kept.current k there full fun old => still (.inl old)
    rw [stops]
    split
    · exact entry
    · rename_i own_full
      rw [Bool.not_eq_true] at own_full
      rw [Function.update_of_ne]
      · exact entry
      · intro same
        have own := kept.current i inside own_full alive
        rw [← same, entry] at own
        cases own
        exact still (.inr ⟨rfl, by simp⟩)
  · intro c k entry
    rw [stops] at entry
    split at entry
    · rename_i admissionOnly
      refine ⟨entry, ?_⟩
      rintro ⟨same, _⟩
      have serves := (kept.mapped c k entry).1
      rw [same] at serves
      have full := serves.2.2
      rw [admissionOnly] at full
      cases full
    · simp only [Function.update_apply] at entry
      split at entry
      · cases entry
      · rename_i other
        refine ⟨entry, ?_⟩
        rintro ⟨same, _⟩
        have serves := (kept.mapped c k entry).1
        rw [same] at serves
        exact other serves.2.1.symm
  · intro c k entry
    unfold handled setPending setStatus at entry
    simp only at entry
    split at entry
    · split at entry
      · simp only [Function.update_apply] at entry
        split at entry
        · cases entry
        · exact entry
      · exact entry
    · exact entry

theorem settle_kept (kept : Kept allowed l) {i : Nat} {l' : Ledger} (settled : l.settle i = some l') :
    Kept allowed l' ∧ Grown l l' := by
  unfold settle at settled
  split at settled
  · rename_i inside
    split at settled
    · rename_i failure answered
      cases settled
      refine ⟨?_, settling_grown (handled_settling i failure) answered⟩
      cases failure with
      | none => exact settle_fulfilled kept inside answered
      | some f => exact settle_rejected kept inside answered
    · cases settled
  · cases settled

theorem invoke_kept (kept : Kept allowed l) {i : Nat} {l' : Ledger} (invoked : l.invoke i = some l') :
    Kept allowed l' ∧ Grown l l' := by
  unfold invoke at invoked
  split at invoked
  · rename_i ready
    cases invoked
    have open_status : ∀ failure, (l.operation i).status ≠ .settled failure := by simp [ready.2]
    exact ⟨setStatus_kept kept open_status (by simp), setStatus_grown open_status⟩
  · cases invoked

theorem answer_kept (kept : Kept allowed l) {i : Nat} {failure : Option Failure} {l' : Ledger}
    (answered : l.answer i failure = some l') : Kept allowed l' ∧ Grown l l' := by
  unfold answer at answered
  split at answered
  · rename_i ready
    cases answered
    have open_status : ∀ failure, (l.operation i).status ≠ .settled failure := by simp [ready.2]
    exact ⟨setStatus_kept kept open_status (by simp), setStatus_grown open_status⟩
  · cases answered

end Statuses

section Joins
variable {allowed : Nat → Prop} {l : Ledger}

theorem setJoin_join (j : Nat) (status : JoinStatus) (k : Nat) :
    (l.setJoin j status).join k =
      { l.join k with status := if k = j then status else (l.join k).status } := by
  simp only [setJoin, Function.update_apply]
  split
  · rename_i same
    rw [same]
  · rfl

theorem setJoin_grown {j : Nat} {status : JoinStatus}
    (open_status : ∀ failure, (l.join j).status ≠ .settled failure) : Grown l (l.setJoin j status) where
  components := rfl
  completed := rfl
  started := List.Sublist.refl _
  operations := Nat.le_refl _
  joins := Nat.le_refl _
  operation _ _ := ⟨rfl, rfl, fun _ h => h⟩
  join k _ := by
    rw [setJoin_join]
    refine ⟨rfl, rfl, ?_⟩
    intro failure settled
    have other : k ≠ j := fun same => open_status failure (same ▸ settled)
    simp only [other, if_false]
    exact settled

theorem setJoin_kept (kept : Kept allowed l) {j : Nat} {status : JoinStatus}
    (open_status : ∀ failure, (l.join j).status ≠ .settled failure)
    (tracks : l.Tracks { l.join j with status := status }) : Kept allowed (l.setJoin j status) := by
  have grown : Grown l (l.setJoin j status) := setJoin_grown open_status
  exact { kept with
    joined := by
      intro k inside
      rw [setJoin_join]
      refine ⟨(kept.joined k inside).1, ?_⟩
      rcases eq_or_ne k j with same | other
      · subst same
        simp only [if_true]
        exact grown_tracks grown tracks
      · simp only [other, if_false]
        exact grown_tracks grown (kept.joined k inside).2
    permitted_join := by
      intro k inside full
      rw [grown_only grown] at full
      rw [setJoin_join] at full ⊢
      exact kept.permitted_join k inside full }

theorem rejoin_kept (kept : Kept allowed l) {x : Contexts} {j : Nat} {l' : Ledger}
    (rejoined : l.rejoin x j = some l') : Kept allowed l' ∧ Grown l l' := by
  unfold rejoin at rejoined
  split at rejoined
  · rename_i inside
    obtain ⟨completed, tracks⟩ := kept.joined j inside
    split at rejoined
    · rename_i i catching
      have open_status : ∀ failure, (l.join j).status ≠ .settled failure := by simp [catching]
      unfold Tracks at tracks
      rw [catching] at tracks
      split at rejoined
      · rename_i settled
        cases rejoined
        refine ⟨setJoin_kept kept open_status ?_, setJoin_grown open_status⟩
        -- the operation it caught has been fulfilled
        intro full
        have serves : l.Serves (.operation i) (l.join j).component false := full ▸ tracks
        apply fulfilled_stopped kept serves
        simp only [outcome, settled]
      · rename_i failure settled
        split at rejoined
        · cases rejoined
          have permitted := kept.permitted_join j inside
          obtain ⟨kept', grown, serves⟩ := stopComponent_kept kept (l.join j).context completed permitted
          obtain ⟨component, admission, _⟩ := grown.join j inside
          have same : ((l.stopComponent (l.join j).component (l.join j).context
              (l.join j).admission).2.join j).status = .catching i := by
            unfold stopComponent
            simp only
            split
            · split
              · exact catching
              · simp only [openJoin]
                rw [Function.update_of_ne (by omega)]
                exact catching
            · unfold setPending
              split
              · exact catching
              · exact catching
          have still_open : ∀ failure, ((l.stopComponent (l.join j).component (l.join j).context
              (l.join j).admission).2.join j).status ≠ .settled failure := by simp [same]
          refine ⟨setJoin_kept kept' still_open ?_, grown_trans grown (setJoin_grown still_open)⟩
          simp only [Tracks, component, admission, grown_only grown]
          exact serves
        · cases rejoined
          exact ⟨setJoin_kept kept open_status trivial, setJoin_grown open_status⟩
      · cases rejoined
    · cases rejoined
  · cases rejoined

theorem follow_kept (kept : Kept allowed l) {j : Nat} {l' : Ledger} (followed : l.follow j = some l') :
    Kept allowed l' ∧ Grown l l' := by
  unfold follow at followed
  split at followed
  · rename_i inside
    obtain ⟨completed, tracks⟩ := kept.joined j inside
    split at followed
    · rename_i ref following
      have open_status : ∀ failure, (l.join j).status ≠ .settled failure := by simp [following]
      unfold Tracks at tracks
      rw [following] at tracks
      obtain ⟨failure, outcome, rfl⟩ := Option.map_eq_some_iff.mp followed
      refine ⟨setJoin_kept kept open_status ?_, setJoin_grown open_status⟩
      cases failure with
      | none =>
        intro full
        have serves : l.Serves ref (l.join j).component false := full ▸ tracks
        exact fulfilled_stopped kept serves outcome
      | some f => trivial
    · cases followed
  · cases followed

theorem complete_kept (kept : Kept allowed l) (permitted : Nat → Prop) {c : Nat}
    (fresh : c ∉ l.completed) (none_asked : l.operations = 0 ∧ l.joins = 0) :
    Kept permitted (l.complete c) := by
  have never : ∀ c, ¬l.Stopped c := by
    rintro c ⟨i, inside, _⟩
    omega
  have vacant : ∀ c, l.componentStops c = none ∧ l.admissionStops c = none := by
    intro c
    constructor
    · cases entry : l.componentStops c with
      | none => rfl
      | some i =>
        have := (kept.mapped c i entry).1.1
        omega
    · cases entry : l.admissionStops c with
      | none => rfl
      | some i =>
        have := (kept.admission_mapped c i entry).1
        omega
  constructor
  · exact List.nodup_append.mpr ⟨kept.completed_nodup, List.nodup_singleton c, by
      intro a mem b single same
      rw [List.mem_singleton] at single
      exact fresh (single ▸ same ▸ mem)⟩
  · exact kept.started_sublist.append (List.Sublist.refl _)
  · intro c'
    have before := kept.started c'
    simp only [complete, List.mem_append, before]
    have still : ¬(l.complete c).Stopped c' := never c'
    simp only [complete] at still
    simp [never c', still]
  · intro i inside
    exact absurd inside (by simp only [complete]; omega)
  · intro i inside
    exact absurd inside (by simp only [complete]; omega)
  · intro c' i entry
    have := (vacant c').1
    simp only [complete] at entry
    rw [this] at entry
    cases entry
  · intro c' i entry
    have := (vacant c').2
    simp only [complete] at entry
    rw [this] at entry
    cases entry
  · intro j inside
    exact absurd inside (by simp only [complete]; omega)
  · intro i inside
    exact absurd inside (by simp only [complete]; omega)
  · intro j inside
    exact absurd inside (by simp only [complete]; omega)

end Joins

end Ledger

end Services
