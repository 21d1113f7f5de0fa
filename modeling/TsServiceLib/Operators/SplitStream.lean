import Mathlib.Data.List.Sort
import TsServiceLib.Library.Transitions

/-!
A stream with several links, and the emission of one value to them. Links whose
calls complete within `emit` are served in the loop; from the first promise on,
the rest is chained with `then`. A link may return, throw, or answer with a
promise that settles later.
-/
namespace SplitStreams
open Function Transitions

/-- `caller` says whether the caller is asynchronous. -/
structure SplitLink where
  index : Nat
  consumer : Bool := false
  caller : Option Bool := none
  deriving DecidableEq

def SplitLink.isAsync (link : SplitLink) : Bool := link.caller.getD false

structure SplitStream where
  name : String
  links : List SplitLink := []
  dispatchOrder : List SplitLink := []

section Building
variable (s : SplitStream)

def addStream : SplitStream := { s with links := s.links ++ [{ index := s.links.length }] }

/-- `made` is what `makeCaller` gives: whether the caller is asynchronous, or an error. -/
def setConsumer (link : SplitLink) (made : Except String Bool) : SplitStream × Option String :=
  if link.consumer then
    (s, some ("consumer already assigned to stream " ++ s.name ++ "SplitLink" ++ toString link.index))
  else
    match made with
    | .ok async => ({ s with links := s.links.set link.index ⟨link.index, true, some async⟩ }, none)
    | .error e => ({ s with links := s.links.set link.index ⟨link.index, true, link.caller⟩ }, some e)

/-- `Number(right.isAsync()) - Number(left.isAsync())` -/
def compareLinks (left right : SplitLink) : Int := right.isAsync.toNat - left.isAsync.toNat

/-- The links compare in this order, or are equal to the comparison. -/
def precedes (left right : SplitLink) : Bool := compareLinks left right ≤ 0

def build : Except String SplitStream :=
  match s.links.find? fun link => !link.consumer with
  | some link =>
    .error ("link with index " ++ toString link.index ++ " for SplitStream " ++ s.name ++ " does not have consumer")
  | none => .ok { s with dispatchOrder := s.links.mergeSort precedes }

end Building

inductive Construction where
  | addStream
  | setConsumer (link : SplitLink) (made : Except String Bool)

def construct (s : SplitStream) : Construction → Option SplitStream
  | .addStream => some (addStream s)
  | .setConsumer link made => if link ∈ s.links then some (setConsumer s link made).1 else none

section Emissions
variable {E : Type}

inductive Behaviour (E : Type) where
  | returns
  | throws (error : E)
  | resolvesLater
  | rejectsLater (error : E)
  deriving DecidableEq

inductive Settlement (E : Type) where
  | fulfilled
  | rejected (error : E)
  deriving DecidableEq

inductive Event (E : Type) where
  | emitted (link : SplitLink)
  | completed (link : SplitLink)
  | failed (link : SplitLink) (error : E)
  deriving DecidableEq

/-- The promise a link returned, or the one that `then` made for it. -/
inductive Promise where
  | returned (link : SplitLink)
  | chained (link : SplitLink)
  deriving DecidableEq

/-- One call of `consume`. `waiting` is the promise that the callback for a link
    waits for; `adopting` says that the callback has answered with the promise of
    the link, and `final` is the promise of the `finally` that ends the span. -/
structure Emission (E : Type) where
  traced : Bool
  pending : Option Promise := none
  thrown : Option E := none
  waiting : SplitLink → Option Promise := fun _ => none
  adopting : SplitLink → Bool := fun _ => false
  returned : SplitLink → Bool := fun _ => false
  settlement : Promise → Option (Settlement E) := fun _ => none
  final : Option (Settlement E) := none
  log : List (Event E) := []

def record (s : Emission E) (events : List (Event E)) : Emission E := { s with log := s.log ++ events }

def settle (s : Emission E) (p : Promise) (outcome : Settlement E) : Emission E :=
  { s with settlement := update s.settlement p (some outcome) }

def ended (link : SplitLink) : Settlement E → Event E
  | .fulfilled => .completed link
  | .rejected error => .failed link error

variable (behaviour : SplitLink → Behaviour E)

/-- `link.emit`, and how it settled if it did so at once. -/
def emit (s : Emission E) (link : SplitLink) : Emission E × Option (Settlement E) :=
  match behaviour link with
  | .returns => (record s [.emitted link, .completed link], some .fulfilled)
  | .throws error => (record s [.emitted link, .failed link error], some (.rejected error))
  | .resolvesLater | .rejectsLater _ =>
    ({ record s [.emitted link] with returned := update s.returned link true }, none)

def emitLinks (s : Emission E) : List SplitLink → Emission E
  | [] => s
  | link :: rest =>
    match s.pending with
    | none =>
      match emit behaviour s link with
      | (next, some .fulfilled) => emitLinks next rest
      | (next, some (.rejected error)) => { next with thrown := some error }
      | (next, none) => emitLinks { next with pending := some (.returned link) } rest
    | some p =>
      emitLinks { s with waiting := update s.waiting link (some p), pending := some (.chained link) } rest

def consume (s : SplitStream) (traced : Bool) : Emission E := emitLinks behaviour { traced } s.dispatchOrder

inductive Action where
  | answer (link : SplitLink)
  | react (link : SplitLink)
  | adopt (link : SplitLink)
  | finish
  deriving DecidableEq

/-- The promise that a link returned settles. -/
def answer (s : Emission E) (link : SplitLink) : Option (Emission E) :=
  if s.returned link = true ∧ s.settlement (.returned link) = none then
    match behaviour link with
    | .resolvesLater => some (record (settle s (.returned link) .fulfilled) [.completed link])
    | .rejectsLater error => some (record (settle s (.returned link) (.rejected error)) [.failed link error])
    | .returns | .throws _ => none
  else none

/-- The promise that the callback for a link waits for has settled. -/
def react (s : Emission E) (link : SplitLink) : Option (Emission E) :=
  match (s.waiting link).bind s.settlement with
  | none => none
  | some (.rejected error) =>
    some (settle { s with waiting := update s.waiting link none } (.chained link) (.rejected error))
  | some .fulfilled =>
    match emit behaviour { s with waiting := update s.waiting link none } link with
    | (next, some outcome) => some (settle next (.chained link) outcome)
    | (next, none) => some { next with adopting := update s.adopting link true }

/-- The promise of a callback settles as the one it answered with. -/
def adopt (s : Emission E) (link : SplitLink) : Option (Emission E) :=
  if s.adopting link then
    (s.settlement (.returned link)).map fun outcome =>
      settle { s with adopting := update s.adopting link false } (.chained link) outcome
  else none

/-- The handler of `finally`. -/
def finish (s : Emission E) : Option (Emission E) :=
  if s.traced = true ∧ s.thrown = none ∧ s.final = none then
    (s.pending.bind s.settlement).map fun outcome => { s with final := some outcome }
  else none

def step (s : Emission E) : Action → Option (Emission E)
  | .answer link => answer behaviour s link
  | .react link => react behaviour s link
  | .adopt link => adopt s link
  | .finish => finish s

/-- How the completion of `consume` has settled: an exception, nothing, or the promise. -/
def completion (s : Emission E) : Option (Settlement E) :=
  match s.thrown, s.pending with
  | some error, _ => some (.rejected error)
  | none, none => some .fulfilled
  | none, some p => if s.traced then s.final else s.settlement p

def Reachable (order : List SplitLink) (traced : Bool) (s : Emission E) : Prop :=
  Steps (step behaviour) Any (emitLinks behaviour { traced } order) s

end Emissions

section Order
variable {s t : SplitStream} {links : List SplitLink}

/-- Links are numbered in the order in which they were added. -/
def Numbered (s : SplitStream) : Prop := s.links.map SplitLink.index = List.range s.links.length

theorem construct_numbered {a : Construction} (numbered : Numbered s) (next : construct s a = some t) : Numbered t := by
  unfold Numbered at numbered ⊢
  cases a with
  | addStream =>
    cases next
    simp [addStream, numbered, List.range_succ]
  | setConsumer link made =>
    simp only [construct] at next
    split at next
    · cases next
      have kept : ∀ caller, (s.links.set link.index ⟨link.index, true, caller⟩).map SplitLink.index =
          List.range (s.links.set link.index ⟨link.index, true, caller⟩).length := by
        intro caller
        rw [List.map_set, numbered, List.length_set]
        apply List.ext_getElem (by simp)
        intro i first second
        simp only [List.getElem_set, List.getElem_range]
        split <;> omega
      unfold setConsumer
      split
      · exact numbered
      · split
        · exact kept _
        · exact kept _
    · cases next

theorem numbered_of_construction {name : String} (run : Steps construct Any { name } s) : Numbered s := by
  refine steps_invariant Numbered (fun _ _ _ numbered _ next => construct_numbered numbered next) run ?_
  simp [Numbered]

theorem numbered_nodup (numbered : Numbered s) : s.links.Nodup := by
  apply List.Nodup.of_map SplitLink.index
  rw [numbered]
  exact List.nodup_range

theorem precedes_iff (left right : SplitLink) :
    precedes left right = true ↔ (right.isAsync = true → left.isAsync = true) := by
  unfold precedes compareLinks
  rw [decide_eq_true_iff]
  cases left.isAsync <;> cases right.isAsync <;> simp

theorem precedes_trans (a b c : SplitLink) (first : precedes a b = true) (second : precedes b c = true) :
    precedes a c = true := by
  rw [precedes_iff] at first second ⊢
  intro async
  exact first (second async)

theorem precedes_total (a b : SplitLink) : (precedes a b || precedes b a) = true := by
  simp only [Bool.or_eq_true, precedes_iff]
  cases a.isAsync <;> simp

/-- A list in which what satisfies `p` stands before what does not. -/
theorem eq_filter_append_of_pairwise {α : Type} {p : α → Bool} {list : List α}
    (sorted : list.Pairwise fun a b => p b = true → p a = true) :
    list = list.filter p ++ list.filter fun a => !p a := by
  induction list with
  | nil => rfl
  | cons a rest ih =>
    obtain ⟨first, sorted⟩ := List.pairwise_cons.mp sorted
    by_cases holds : p a = true
    · rw [List.filter_cons_of_pos holds, List.filter_cons_of_neg (by simp [holds]), List.cons_append, ← ih sorted]
    · have none : rest.filter p = [] := by
        rw [List.filter_eq_nil_iff]
        intro b member holds'
        exact holds (first b member holds')
      have whole := ih sorted
      rw [none, List.nil_append] at whole
      rw [List.filter_cons_of_neg holds, List.filter_cons_of_pos (by simp [holds]), none, ← whole, List.nil_append]

/-- The sort is stable: links of one kind keep their order. -/
theorem mergeSort_filter {p : SplitLink → Bool} (same : ∀ a b, p a = true → p b = true → a.isAsync = b.isAsync) :
    (links.mergeSort precedes).filter p = links.filter p := by
  have alike : (links.filter p).Pairwise fun left right => precedes left right = true := by
    refine List.Pairwise.imp_of_mem ?_ (List.pairwise_of_forall (R := fun _ _ => True) (by simp))
    intro a b first second _
    rw [precedes_iff, same a b (List.mem_filter.mp first).2 (List.mem_filter.mp second).2]
    exact id
  have inside := (List.sublist_mergeSort precedes_trans precedes_total alike List.filter_sublist).filter p
  rw [List.filter_filter] at inside
  simp only [Bool.and_self] at inside
  have size := ((List.mergeSort_perm links precedes).filter p).length_eq
  exact (inside.eq_of_length size.symm).symm

/-- Asynchronous callers first, otherwise in the order in which the links were added. -/
theorem build_dispatchOrder (built : build s = .ok t) :
    t.dispatchOrder = s.links.filter SplitLink.isAsync ++ s.links.filter fun link => !link.isAsync := by
  unfold build at built
  split at built
  · cases built
  · cases built
    have sorted := List.pairwise_mergeSort precedes_trans precedes_total s.links
    simp only [precedes_iff] at sorted
    rw [eq_filter_append_of_pairwise sorted, mergeSort_filter, mergeSort_filter]
    · intro a b first second
      simp only [Bool.not_eq_true'] at first second
      rw [first, second]
    · intro a b first second
      rw [first, second]

theorem build_nodup (numbered : Numbered s) (built : build s = .ok t) : t.dispatchOrder.Nodup := by
  unfold build at built
  split at built
  · cases built
  · cases built
    exact (List.mergeSort_perm s.links precedes).nodup_iff.mpr (numbered_nodup numbered)

end Order

end SplitStreams
