import TsServiceLib.Context.SignalEffects

/-!
Lines of descent. A context hands its deadline down to the contexts derived
from it, which may only bring it forward. A deadline that is not a number has
no place among the others; once there, it stays.
-/
namespace ContextDerivations
open Numbers AbortSignals Transitions

section Deadlines

/-- The operator `<=` on deadlines. -/
def lessOrEqual (a b : Number) : Bool := !a.isNaN && !b.isNaN && !b.lt a

theorem lessOrEqual_iff_place {a b : Number} (ha : a.isNaN = false) (hb : b.isNaN = false) :
    lessOrEqual a b = true ↔ a.place ≤ b.place := by
  have strict := Number.lt_iff_place hb ha
  simp only [lessOrEqual, ha, hb, Bool.not_false, Bool.true_and, Bool.not_eq_true']
  rw [← not_lt, ← strict, Bool.not_eq_true]

theorem lessOrEqual_trans {a b c : Number} (first : lessOrEqual a b = true) (second : lessOrEqual b c = true) :
    lessOrEqual a c = true := by
  have left := first
  have right := second
  simp only [lessOrEqual, Bool.and_eq_true, Bool.not_eq_true'] at left right
  rw [lessOrEqual_iff_place left.1.1 left.1.2] at first
  rw [lessOrEqual_iff_place left.1.2 right.1.2] at second
  rw [lessOrEqual_iff_place left.1.1 right.1.2]
  exact le_trans first second

/-- The first deadline is not after the second, or is not a number. -/
inductive Within : Option Number → Option Number → Prop where
  | nan (b : Option Number) : Within (some .nan) b
  | unlimited (a : Option Number) : Within a none
  | earlier {a b : Number} (least : lessOrEqual a b = true) : Within (some a) (some b)

theorem within_refl (a : Option Number) : Within a a := by
  cases a with
  | none => exact .unlimited none
  | some a =>
    cases a with
    | nan => exact .nan _
    | negInfinity => exact .earlier rfl
    | posInfinity => exact .earlier rfl
    | finite q => exact .earlier (by simp [lessOrEqual, Number.isNaN, Number.lt])

theorem within_trans {a b c : Option Number} (first : Within a b) (second : Within b c) : Within a c := by
  cases second with
  | unlimited => exact .unlimited a
  | nan =>
    cases first with
    | nan => exact .nan c
    | @earlier a _ least => simp [lessOrEqual, Number.isNaN] at least
  | earlier later =>
    cases first with
    | nan => exact .nan _
    | earlier least => exact .earlier (lessOrEqual_trans least later)

theorem minimum_within (a b : Number) : Within (some (minimum a b)) (some a) := by
  cases a <;> cases b
  case finite.finite p q =>
    rcases lt_or_ge q p with below | above
    · have least : lessOrEqual (.finite q) (.finite p) = true := by
        simp [lessOrEqual, Number.isNaN, Number.lt, below.le]
      simpa [minimum, Number.lt, below] using Within.earlier least
    · simpa [minimum, Number.lt, not_lt.mpr above] using within_refl (some (.finite p))
  all_goals first
    | exact .nan _
    | exact .earlier rfl
    | exact within_refl _

theorem childDeadline_within (current requested : Option Number) : Within (childDeadline current requested) current := by
  cases requested with
  | none => exact within_refl current
  | some requested =>
    cases current with
    | none => exact .unlimited _
    | some current => exact minimum_within current requested

theorem effectiveDeadline_within (now : ℚ) (context : AnyContext) {d : Derivation} (attached : d ≠ .withoutCancellation) :
    Within (effectiveDeadline now context d) context.deadline := by
  cases d with
  | withDeadline deadline => exact childDeadline_within context.deadline deadline
  | bounded timeoutMs => exact childDeadline_within context.deadline (some (boundedDeadline now context.deadline timeoutMs))
  | withoutCancellation => exact absurd rfl attached
  | _ => exact within_refl _

end Deadlines

section Lines
variable {E : Type} {s t : System E}

/-- The second context is the first, or one that it was derived from in some
    number of steps, none of them `withoutCancellation`. -/
inductive Line (s : System E) : Nat → Nat → Prop where
  | here (c : Nat) : Line s c c
  | up {c parent a : Nat} {derived : Derived} (found : s.contexts[c]? = some derived)
      (from_ : derived.parent = some parent) (rest : Line s parent a) : Line s c a

inductive Enlarged (s : System E) (a : Action E) : System E → Prop where
  | same (w : World E) (quiet : ∀ c d, a ≠ .derive c d) : Enlarged s a { s with world := w }
  | fresh (message : Bool) (signal : Nat) (made : signal < s.world.count) (here : a = .newContext message signal) :
      Enlarged s a { s with contexts := s.contexts ++ [{ context := newContext message signal }] }
  | derived {c : Nat} {d : Derivation} (here : a = .derive c d) {of : Derived} (found : s.contexts[c]? = some of)
      (joinable : joinable s d = true) {result : AnyContext} {w : World E}
      (deadline : result.deadline = effectiveDeadline s.world.now of.context d)
      (effect : Effect s.world of.context d result w) :
      Enlarged s a
        { world := w, contexts := s.contexts ++ [{ context := result, parent := parentBy c d, joined := joinedBy d }] }

theorem step_enlarged {a : Action E} (next : step s a = some t) : Enlarged s a t := by
  cases a with
  | newSignal =>
    cases next
    exact .same _ (by intro c d same; cases same)
  | newContext message signal =>
    simp only [step] at next
    split at next
    · rename_i made
      cases next
      exact .fresh message signal made rfl
    · cases next
  | abort signal reason =>
    simp only [step] at next
    split at next <;> cases next
    exact .same _ (by intro c d same; cases same)
  | derive c d =>
    simp only [step] at next
    split at next
    · rename_i of found
      split at next
      · rename_i joinable
        obtain ⟨⟨result, w⟩, derived, same⟩ := Option.map_eq_some_iff.mp next
        cases same
        obtain ⟨deadline, effect⟩ := derive_effect derived
        exact .derived rfl found joinable deadline effect
      · cases next
    · cases next
  | elapse time =>
    simp only [step] at next
    split at next <;> cases next
    exact .same _ (by intro c d same; cases same)
  | fire child =>
    obtain ⟨w, fired, same⟩ := Option.map_eq_some_iff.mp next
    cases same
    exact .same _ (by intro c d same; cases same)
  | advance =>
    obtain ⟨w, advanced, same⟩ := Option.map_eq_some_iff.mp next
    cases same
    exact .same _ (by intro c d same; cases same)

/-- Contexts are not changed, and the number of a new one is the next. -/
theorem enlarged_old {a : Action E} (enlarged : Enlarged s a t) {c : Nat} {derived : Derived}
    (found : s.contexts[c]? = some derived) : t.contexts[c]? = some derived := by
  have bound := (List.getElem?_eq_some_iff.mp found).1
  cases enlarged with
  | same w => exact found
  | fresh message signal => rw [List.getElem?_append_left bound, found]
  | derived => rw [List.getElem?_append_left bound, found]

/-- A parent is an earlier context, whose deadline is not before that of the child. -/
def Descending (s : System E) : Prop :=
  ∀ (c : Nat) (derived : Derived) (parent : Nat), s.contexts[c]? = some derived → derived.parent = some parent →
    parent < c ∧ ∃ of, s.contexts[parent]? = some of ∧ Within derived.context.deadline of.context.deadline

theorem parentBy_eq {c parent : Nat} {d : Derivation} (from_ : parentBy c d = some parent) :
    parent = c ∧ d ≠ .withoutCancellation := by
  cases d <;> cases from_ <;> exact ⟨rfl, by intro parts; cases parts⟩

theorem step_descending {a : Action E} (descending : Descending s) (next : step s a = some t) : Descending t := by
  have enlarged := step_enlarged next
  have old : ∀ (c : Nat) (derived : Derived) (parent : Nat), s.contexts[c]? = some derived → derived.parent = some parent →
      parent < c ∧ ∃ of, t.contexts[parent]? = some of ∧ Within derived.context.deadline of.context.deadline := by
    intro c derived parent found from_
    obtain ⟨before, of, there, within⟩ := descending c derived parent found from_
    exact ⟨before, of, enlarged_old enlarged there, within⟩
  intro c derived parent found from_
  cases enlarged with
  | same w => exact old c derived parent found from_
  | fresh message signal =>
    rcases lt_or_ge c s.contexts.length with before | new
    · rw [List.getElem?_append_left before] at found
      exact old c derived parent found from_
    · rw [List.getElem?_append_right new, List.getElem?_singleton] at found
      split at found <;> cases found
      cases from_
  | @derived origin d _ of there joinable result w deadline effect =>
    rcases lt_or_ge c s.contexts.length with before | new
    · rw [List.getElem?_append_left before] at found
      exact old c derived parent found from_
    · have last : c - s.contexts.length = 0 := by
        rw [List.getElem?_append_right new, List.getElem?_singleton] at found
        split at found
        · assumption
        · cases found
      rw [List.getElem?_append_right new, last] at found
      cases found
      obtain ⟨rfl, attached⟩ := parentBy_eq from_
      have bound := (List.getElem?_eq_some_iff.mp there).1
      refine ⟨by omega, of, by rw [List.getElem?_append_left bound, there], ?_⟩
      have within := effectiveDeadline_within s.world.now of.context attached
      rwa [← deadline] at within

theorem reachable_descending (reach : Reachable s) : Descending s := by
  refine steps_invariant Descending (fun _ _ _ held _ next => step_descending held next) reach ?_
  intro c derived parent found
  cases found

theorem line_within (descending : Descending s) {c a : Nat} (line : Line s c a) {derived ancestor : Derived}
    (found : s.contexts[c]? = some derived) (there : s.contexts[a]? = some ancestor) :
    Within derived.context.deadline ancestor.context.deadline := by
  induction line generalizing derived with
  | here c =>
    rw [found] at there
    cases there
    exact within_refl _
  | @up c parent a own start from_ rest ih =>
    have same : derived = own := by
      rw [found] at start
      exact Option.some.inj start
    subst same
    obtain ⟨-, of, above, within⟩ := descending c derived parent found from_
    exact within_trans within (ih above there)

end Lines

end ContextDerivations
