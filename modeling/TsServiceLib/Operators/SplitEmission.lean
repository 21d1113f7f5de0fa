import Mathlib.Algebra.GroupWithZero.Nat
import Mathlib.Algebra.Order.BigOperators.Group.List
import Mathlib.Algebra.Order.Group.Nat
import TsServiceLib.Operators.SplitFlow

/-!
The emission as a whole: what the loop of `emitLinks` leaves behind, how the
completion settles, and that it does.
-/
namespace SplitStreams
open Function Transitions
variable {E : Type}

section Start
variable {behaviour : SplitLink → Behaviour E} {s : Emission E} {p : Promise} {rest : List SplitLink}

theorem emitLinks_attached (behaviour : SplitLink → Behaviour E) (pending : s.pending = some p) (nodup : rest.Nodup) (untouched : ∀ link ∈ rest, Untouched s link) :
    ∃ waiting, emitLinks behaviour s rest = { s with waiting, pending := some (lastOf p rest) } ∧
      (∀ link, link ∉ rest → waiting link = s.waiting link) ∧ Waiting (emitLinks behaviour s rest) p rest := by
  induction rest generalizing s p with
  | nil =>
    refine ⟨s.waiting, ?_, fun _ _ => rfl, trivial⟩
    simp only [emitLinks, lastOf, ← pending]
  | cons link rest ih =>
    obtain ⟨fresh, distinct⟩ := List.nodup_cons.mp nodup
    simp only [emitLinks, pending]
    obtain ⟨waiting, result, outside, behind⟩ :=
      ih (s := { s with waiting := update s.waiting link (some p), pending := some (.chained link) }) rfl distinct
        (by
          intro other member
          obtain ⟨adopting, returned, own, chained⟩ := untouched other (List.mem_cons_of_mem _ member)
          exact ⟨adopting, returned, own, chained⟩)
    refine ⟨waiting, result, ?_, ?_, ?_, behind⟩
    · intro other ne
      simp only [List.mem_cons, not_or] at ne
      rw [outside other ne.2]
      exact update_of_ne ne.1 _ _
    · rw [result]
      change waiting link = some p
      rw [outside link fresh]
      exact update_self ..
    · rw [result]
      obtain ⟨adopting, returned, own, chained⟩ := untouched link List.mem_cons_self
      exact ⟨adopting, returned, own, chained⟩

structure Looping (behaviour : SplitLink → Behaviour E) (s : Emission E) (done : List SplitLink) : Prop where
  good : ∀ link ∈ done, outcome behaviour link = .fulfilled
  pending : s.pending = none
  thrown : s.thrown = none
  final : s.final = none
  idle : ∀ link, s.waiting link = none
  untouched : ∀ link, Untouched s link
  log : s.log = script behaviour done

theorem looping_over {done : List SplitLink} (looping : Looping behaviour s done) (link : SplitLink) : Over s link := by
  have untouched := looping.untouched link
  refine ⟨looping.idle link, untouched.adopting, ?_⟩
  intro returned
  rw [untouched.returned] at returned
  cases returned

theorem emitLinks_flow {done : List SplitLink} (looping : Looping behaviour s done) (nodup : rest.Nodup) :
    Flow behaviour (done ++ rest) (emitLinks behaviour s rest) ∧ (emitLinks behaviour s rest).final = none := by
  induction rest generalizing s done with
  | nil =>
    refine ⟨.inline looping.pending (looping_over looping) ?_ ?_, looping.final⟩
    · rw [List.append_nil]
      exact looping.log
    · simp only [emitLinks]
      rw [looping.thrown, verdict_append looping.good]
      rfl
  | cons link rest ih =>
    obtain ⟨fresh, distinct⟩ := List.nodup_cons.mp nodup
    simp only [emitLinks, looping.pending]
    rcases emit_cases behaviour s link with inline | ⟨later, -⟩
    · rw [inline]
      cases result : outcome behaviour link with
      | fulfilled =>
        dsimp only
        rw [List.append_cons]
        refine ih ⟨?_, looping.pending, looping.thrown, looping.final, looping.idle, ?_, ?_⟩ distinct
        · intro earlier member
          rcases List.mem_append.mp member with member | member
          · exact looping.good earlier member
          · rw [List.mem_singleton.mp member]
            exact result
        · intro other
          obtain ⟨adopting, returned, own, chained⟩ := looping.untouched other
          exact ⟨adopting, returned, own, chained⟩
        · rw [script_passed looping.good result]
          simp only [record, looping.log, ended]
      | rejected error =>
        refine ⟨.inline looping.pending ?_ ?_ ?_, looping.final⟩
        · intro other
          obtain ⟨waiting, adopting, returned⟩ := looping_over looping other
          exact ⟨waiting, adopting, returned⟩
        · rw [script_failed looping.good result]
          simp only [record, looping.log, ended]
        · rw [verdict_append looping.good]
          simp only [verdict, result, Option.elim]
    · rw [later]
      dsimp only
      have untouched : ∀ other ∈ rest, Untouched { record s [.emitted link] with
          returned := update s.returned link true, pending := some (.returned link) } other := by
        intro other member
        have ne : other ≠ link := fun same => fresh (same ▸ member)
        obtain ⟨adopting, returned, own, chained⟩ := looping.untouched other
        exact ⟨adopting, by simp [ne, returned], own, chained⟩
      obtain ⟨waiting, result, outside, behind⟩ := emitLinks_attached behaviour (p := .returned link) rfl distinct untouched
      rw [result] at behind ⊢
      refine ⟨.chained done link rest (.returned link) ⟨rfl, looping.good, ?_, ?_, rfl, looping.thrown⟩ ?_, looping.final⟩
      · intro other ne
        simp only [List.mem_cons, not_or] at ne
        obtain ⟨waits, adopting, returned⟩ := looping_over looping other
        refine ⟨?_, adopting, ?_⟩
        · change waiting other = none
          rw [outside other ne.2]
          exact waits
        · intro again
          simp only [update_of_ne ne.1] at again
          exact returned again
      · change waiting link = none
        rw [outside link fresh]
        exact looping.idle link
      · refine .running (update_self ..) (looping.untouched link).own (.inl ⟨rfl, (looping.untouched link).adopting⟩) ?_ behind
        simp only [record, looping.log]

end Start

section Outcome
variable {behaviour : SplitLink → Behaviour E} {order done rest : List SplitLink} {s t : Emission E}
  {link : SplitLink} {p : Promise}

theorem phase_prefix (placed : Placed behaviour order s done link rest p) (phase : Phase behaviour s done link rest p) :
    s.log <+: script behaviour order := by
  rw [placed.split]
  cases phase with
  | running _ _ _ log _ =>
    rw [log]
    exact script_prefix placed.good
  | landed _ _ _ _ log _ =>
    rw [log, script_append placed.good, List.prefix_append_right_inj]
    simp only [script]
    split <;> rename_i result <;> simp [result, ended]
  | resolved _ passed _ log _ =>
    rw [log, script_passed placed.good passed, script_append placed.good, List.prefix_append_right_inj]
    simp [script, passed]
  | failed error gone left _ _ _ _ _ log _ =>
    exact log ▸ List.prefix_rfl

theorem flow_prefix (flow : Flow behaviour order s) : s.log <+: script behaviour order := by
  cases flow with
  | inline _ _ log _ => exact log ▸ List.prefix_rfl
  | chained done link rest p placed phase => exact phase_prefix placed phase

theorem waiting_front_open {links : List SplitLink} (waiting : Waiting s p (link :: links)) :
    s.settlement (lastOf p (link :: links)) = none := by
  obtain ⟨-, untouched, behind⟩ := waiting
  rw [lastOf]
  exact waiting_last_open behind untouched.chained

/-- The last promise of the chain settles with the first failure, or once all links have completed. -/
theorem phase_settled (placed : Placed behaviour order s done link rest p) (phase : Phase behaviour s done link rest p)
    {result : Settlement E} (settled : s.settlement (lastOf p rest) = some result) :
    result = verdict behaviour order ∧ s.log = script behaviour order ∧ ∀ other, Over s other := by
  cases phase with
  | running returned open' own log behind =>
    have unsettled : s.settlement p = none := by
      rcases own with ⟨rfl, -⟩ | ⟨rfl, -, chained⟩
      · exact open'
      · exact chained
    rw [waiting_last_open behind unsettled] at settled
    cases settled
  | landed _ own _ open' _ behind =>
    subst own
    rw [waiting_last_open behind open'] at settled
    cases settled
  | resolved spent passed resolved log behind =>
    cases rest with
    | cons here left =>
      rw [waiting_front_open behind] at settled
      cases settled
    | nil =>
      rw [lastOf, resolved] at settled
      cases settled
      refine ⟨?_, by rw [placed.split, log], ?_⟩
      · rw [placed.split, verdict_append placed.good]
        simp only [verdict, passed]
      · intro other
        by_cases front : other = link
        · exact front ▸ spent
        · exact placed.others other (by simpa using front)
  | failed error gone left split spent bad passed rejected log behind =>
    cases left with
    | cons here left =>
      rw [split, lastOf_append, waiting_front_open behind] at settled
      cases settled
    | nil =>
      rw [List.append_nil] at split
      rw [split, rejected] at settled
      cases settled
      refine ⟨?_, by rw [placed.split, log], ?_⟩
      · rw [placed.split, verdict_append placed.good]
        simp only [verdict, bad]
      · intro other
        by_cases front : other = link
        · exact front ▸ spent
        · by_cases behind : other ∈ rest
          · exact passed other (split ▸ behind)
          · exact placed.others other (by simp [front, behind])

/-- The span ends as the chain has. -/
def Finaled (s : Emission E) : Prop :=
  ∀ result, s.final = some result → ∃ p, s.pending = some p ∧ s.settlement p = some result

theorem step_final {a : Action} (next : step behaviour s a = some t) (moves : a ≠ .finish) : t.final = s.final := by
  cases a with
  | answer link =>
    obtain ⟨-, -, rfl⟩ := answer_cases next
    rfl
  | react link =>
    obtain ⟨p, -, ⟨error, -, rfl⟩ | ⟨-, ⟨rfl⟩ | ⟨rfl, -⟩⟩⟩ := react_cases next
    · rfl
    · rfl
    · rfl
  | adopt link =>
    obtain ⟨-, result, -, rfl⟩ := adopt_cases next
    rfl
  | finish => exact absurd rfl moves

theorem moves_link {a : Action} (moves : a ≠ .finish) : ∃ link, a.link? = some link := by
  cases a with
  | answer link => exact ⟨link, rfl⟩
  | react link => exact ⟨link, rfl⟩
  | adopt link => exact ⟨link, rfl⟩
  | finish => exact absurd rfl moves

theorem step_finaled (flow : Flow behaviour order s) (finaled : Finaled s) {a : Action}
    (next : step behaviour s a = some t) : Finaled t := by
  by_cases moves : a = .finish
  · subst moves
    obtain ⟨-, -, p, result, pending, settled, rfl⟩ := finish_cases next
    intro result' same
    cases same
    exact ⟨p, pending, settled⟩
  · intro result ended
    rw [step_final next moves] at ended
    obtain ⟨p, pending, settled⟩ := finaled result ended
    obtain ⟨touched, concerns⟩ := moves_link moves
    exfalso
    cases flow with
    | inline none' =>
      rw [none'] at pending
      cases pending
    | chained done link rest p placed phase =>
      rw [placed.pending] at pending
      cases pending
      exact over_disabled ((phase_settled placed phase settled).2.2 touched) next concerns

structure Good (behaviour : SplitLink → Behaviour E) (order : List SplitLink) (s : Emission E) : Prop where
  flow : Flow behaviour order s
  finaled : Finaled s

theorem reachable_good {traced : Bool} (nodup : order.Nodup) (reach : Reachable behaviour order traced s) :
    Good behaviour order s := by
  have loop : Looping behaviour ({ traced } : Emission E) [] :=
    ⟨by simp, rfl, rfl, rfl, fun _ => rfl, fun _ => ⟨rfl, rfl, rfl, rfl⟩, rfl⟩
  obtain ⟨flow, final⟩ := emitLinks_flow loop nodup
  refine steps_invariant (Good behaviour order) ?_ reach ⟨flow, ?_⟩
  · intro s a t good _ next
    exact ⟨step_flow nodup good.flow next, step_finaled good.flow good.finaled next⟩
  · intro result ended
    rw [final] at ended
    cases ended

theorem completion_settled (good : Good behaviour order s) {result : Settlement E} (settled : completion s = some result) :
    result = verdict behaviour order ∧ s.log = script behaviour order := by
  cases good.flow with
  | inline pending spent log thrown =>
    refine ⟨?_, log⟩
    rw [← thrown]
    unfold completion at settled
    rw [pending] at settled
    cases failure : s.thrown with
    | none =>
      rw [failure] at settled
      cases settled
      rfl
    | some error =>
      rw [failure] at settled
      cases settled
      rfl
  | chained done link rest p placed phase =>
    have chain : s.settlement (lastOf p rest) = some result := by
      simp only [completion, placed.thrown, placed.pending] at settled
      split at settled
      · obtain ⟨p', pending, chain⟩ := good.finaled result settled
        rw [placed.pending] at pending
        cases pending
        exact chain
      · exact settled
    obtain ⟨same, log, -⟩ := phase_settled placed phase chain
    exact ⟨same, log⟩

theorem answer_enabled (returned : s.returned link = true) (open' : s.settlement (.returned link) = none)
    (later : Later behaviour link) :
    ∃ t, step behaviour s (.answer link) = some t := by
  rcases later with kind | ⟨error, kind⟩ <;> simp [step, answer, returned, open', kind]

theorem react_enabled {result : Settlement E} (source : s.waiting link = some p) (settled : s.settlement p = some result) :
    ∃ t, step behaviour s (.react link) = some t := by
  simp only [step, react, source, Option.bind_some, settled]
  cases result with
  | rejected error => exact ⟨_, rfl⟩
  | fulfilled =>
    dsimp only
    split <;> exact ⟨_, rfl⟩

end Outcome

section Progress
variable {behaviour : SplitLink → Behaviour E} {order done rest : List SplitLink} {s t : Emission E}
  {link : SplitLink} {p : Promise}

/-- Promises are returned only by links that answer later. -/
def Honest (behaviour : SplitLink → Behaviour E) (s : Emission E) : Prop :=
  ∀ link, s.returned link = true → Later behaviour link

theorem step_honest (honest : Honest behaviour s) {a : Action} (next : step behaviour s a = some t) : Honest behaviour t := by
  cases a with
  | answer k =>
    obtain ⟨-, -, rfl⟩ := answer_cases next
    exact honest
  | react k =>
    obtain ⟨p, -, ⟨error, -, rfl⟩ | ⟨-, ⟨rfl⟩ | ⟨rfl, later⟩⟩⟩ := react_cases next
    · exact honest
    · exact honest
    · intro link returned
      by_cases same : link = k
      · exact same ▸ later
      · exact honest link (by simpa [same] using returned)
  | adopt k =>
    obtain ⟨-, result, -, rfl⟩ := adopt_cases next
    exact honest
  | finish =>
    obtain ⟨-, -, p, result, -, -, rfl⟩ := finish_cases next
    exact honest

theorem emitLinks_honest (honest : Honest behaviour s) : Honest behaviour (emitLinks behaviour s rest) := by
  induction rest generalizing s with
  | nil => exact honest
  | cons link rest ih =>
    simp only [emitLinks]
    split
    · rcases emit_cases behaviour s link with inline | ⟨later, kind⟩
      · rw [inline]
        cases outcome behaviour link with
        | fulfilled => exact ih honest
        | rejected error => exact honest
      · rw [later]
        refine ih ?_
        intro other returned
        by_cases same : other = link
        · exact same ▸ kind
        · exact honest other (by simpa [same] using returned)
    · exact ih honest

theorem reachable_honest {traced : Bool} (reach : Reachable behaviour order traced s) : Honest behaviour s := by
  refine steps_invariant (Honest behaviour) (fun _ _ _ honest _ next => step_honest honest next) reach ?_
  apply emitLinks_honest
  intro link returned
  cases returned

/-- The chain can move as long as its last promise is open. -/
theorem phase_moves (honest : Honest behaviour s) (phase : Phase behaviour s done link rest p)
    (open' : s.settlement (lastOf p rest) = none) : ∃ a t, step behaviour s a = some t := by
  cases phase with
  | running returned unanswered _ _ _ =>
    exact ⟨.answer link, answer_enabled returned unanswered (honest link returned)⟩
  | landed settled _ adopting _ _ _ =>
    refine ⟨.adopt link, ?_⟩
    simp [step, adopt, adopting, settled]
  | resolved _ _ settled _ behind =>
    cases rest with
    | nil =>
      rw [lastOf, settled] at open'
      cases open'
    | cons here left =>
      obtain ⟨source, -, -⟩ := behind
      exact ⟨.react here, react_enabled source settled⟩
  | failed error gone left split _ _ _ settled _ behind =>
    cases left with
    | nil =>
      rw [split, List.append_nil, settled] at open'
      cases open'
    | cons here left =>
      obtain ⟨source, -, -⟩ := behind
      exact ⟨.react here, react_enabled source settled⟩

theorem open_moves (good : Good behaviour order s) (honest : Honest behaviour s) (open' : completion s = none) :
    ∃ a t, step behaviour s a = some t := by
  cases good.flow with
  | inline pending _ _ _ =>
    unfold completion at open'
    rw [pending] at open'
    cases failure : s.thrown <;> rw [failure] at open' <;> cases open'
  | chained done link rest p placed phase =>
    simp only [completion, placed.thrown, placed.pending] at open'
    cases chain : s.settlement (lastOf p rest) with
    | none => exact phase_moves honest phase chain
    | some result =>
      rw [chain] at open'
      split at open'
      · rename_i traced
        refine ⟨.finish, ?_⟩
        simp [step, finish, traced, placed.thrown, open', placed.pending, chain]
      · cases open'

/-- How often a link can still move. -/
def weight (s : Emission E) (link : SplitLink) : Nat :=
  3 * (s.waiting link).isSome.toNat + (s.returned link && (s.settlement (.returned link)).isNone).toNat +
    (s.adopting link).toNat

/-- A bound on the steps that are left. -/
def remaining (order : List SplitLink) (s : Emission E) : Nat :=
  (order.map (weight s)).sum + s.final.isNone.toNat

theorem weight_same (same : SameAt s t link) : weight t link = weight s link := by
  unfold weight
  rw [same.waiting, same.returned, same.own, same.adopting]

theorem weight_drops {a : Action} (next : step behaviour s a = some t) (touched : a.link? = some link) :
    weight t link < weight s link := by
  cases a with
  | answer k =>
    cases touched
    obtain ⟨returned, open', rfl⟩ := answer_cases next
    simp [weight, record, settle, returned, open']
  | react k =>
    cases touched
    obtain ⟨p, waiting, ⟨error, -, rfl⟩ | ⟨-, ⟨rfl⟩ | ⟨rfl, -⟩⟩⟩ := react_cases next
    · simp [weight, settle, woken, waiting]
    · simp [weight, settle, record, woken, waiting]
    · have last : (s.settlement (.returned link)).isNone.toNat ≤ 1 := Bool.toNat_le _
      simp [weight, record, woken, waiting]
      omega
  | adopt k =>
    cases touched
    obtain ⟨adopting, result, settled, rfl⟩ := adopt_cases next
    simp [weight, settle, adopting]
  | finish => cases touched

theorem remaining_drops (good : Good behaviour order s) {a : Action} (next : step behaviour s a = some t) :
    remaining order t < remaining order s := by
  have framed := step_framed next
  by_cases moves : a = .finish
  · subst moves
    obtain ⟨-, unfinished, p, result, -, -, rfl⟩ := finish_cases next
    have same : weight { s with final := some result } = weight s := rfl
    simp [remaining, same, unfinished]
  · obtain ⟨touched, concerns⟩ := moves_link moves
    have member : touched ∈ order := by
      cases good.flow with
      | inline _ spent _ _ => exact absurd concerns (over_disabled (spent touched) next)
      | chained done link rest p placed phase =>
        rw [placed.split]
        exact List.mem_append_right _ (placed_concerns placed next touched concerns)
    have lighter : (order.map (weight t)).sum < (order.map (weight s)).sum := by
      apply List.sum_lt_sum
      · intro other _
        by_cases same : other = touched
        · rw [same]
          exact (weight_drops next concerns).le
        · refine (weight_same (framed.same other ?_)).le
          rw [concerns]
          intro equal
          cases equal
          exact same rfl
      · exact ⟨touched, member, weight_drops next concerns⟩
    unfold remaining
    rw [step_final next moves]
    omega

/- For every list of links, in any mix of callers, and for everything the links
   may do: the log of an emission is at all times a prefix of the script, which
   serves the links in the dispatch order, each after the one before has
   completed, up to the first failure; the completion settles with the first
   failure, or once all links have received the value; and it does settle. -/
theorem emission_exact {name : String} {original stream : SplitStream} {traced : Bool}
    (made : Steps construct Any { name } original) (built : build original = .ok stream)
    (run : Steps (step behaviour) Any (consume behaviour stream traced) s) :
    stream.dispatchOrder = original.links.filter SplitLink.isAsync ++ original.links.filter (fun link => !link.isAsync) ∧
      stream.dispatchOrder.Nodup ∧ s.log <+: script behaviour stream.dispatchOrder ∧
      (∀ result, completion s = some result →
        result = verdict behaviour stream.dispatchOrder ∧ s.log = script behaviour stream.dispatchOrder) ∧
      (completion s = none → ∃ a t, step behaviour s a = some t) ∧
      (∀ a t, step behaviour s a = some t → remaining stream.dispatchOrder t < remaining stream.dispatchOrder s) := by
  have nodup : stream.dispatchOrder.Nodup := build_nodup (numbered_of_construction made) built
  have good := reachable_good nodup run
  refine ⟨build_dispatchOrder built, nodup, flow_prefix good.flow, ?_, open_moves good (reachable_honest run), ?_⟩
  · intro result settled
    exact completion_settled good settled
  · intro a t next
    exact remaining_drops good next

/-- A synchronous link, and an asynchronous one behind it. -/
def twoLinks : SplitStream := { name := "split", links := [⟨0, true, some false⟩, ⟨1, true, some true⟩] }

theorem twoLinks_made : Steps construct Any { name := "split" } twoLinks := by
  have evaluated : ((exec construct { name := "split" }
      [.addStream, .addStream, .setConsumer ⟨0, false, none⟩ (.ok false), .setConsumer ⟨1, false, none⟩ (.ok true)]).any
        fun s => decide (s.name = "split" ∧ s.links = twoLinks.links ∧ s.dispatchOrder = [])) = true := by
    decide +kernel
  simp only [Option.any_eq_true, decide_eq_true_eq] at evaluated
  obtain ⟨⟨name, links, order⟩, reached, rfl, rfl, rfl⟩ := evaluated
  exact exec_steps reached

theorem emission_exact_twoLinks : ∃ stream, build twoLinks = .ok stream ∧
    stream.dispatchOrder = [⟨1, true, some true⟩, ⟨0, true, some false⟩] ∧
    (consume (fun _ => Behaviour.rejectsLater "broken") stream false).log <+:
      [.emitted ⟨1, true, some true⟩, .failed ⟨1, true, some true⟩ "broken"] := by
  refine ⟨_, rfl, ?_⟩
  have start : Steps (step fun _ => Behaviour.rejectsLater "broken") Any
      (consume (fun _ => Behaviour.rejectsLater "broken") { twoLinks with dispatchOrder := twoLinks.links.mergeSort precedes } false) _ :=
    .refl _
  obtain ⟨order, -, log, -⟩ := emission_exact twoLinks_made rfl start
  have links : _ = [_, _] := order
  refine ⟨links, ?_⟩
  rw [links] at log
  exact log

end Progress

end SplitStreams
