import TsServiceLib.Library.Transitions

/-!
Runs seen from outside. An action shows an event or shows nothing, and two
systems that show the same events are compared whatever they do in between.
The lockstep rule says that both end alike; the simulation rule, that what one
of them can show the other can show too.
-/
namespace Transitions
variable {State State' Action Action' Event : Type*}

inductive Shows (step : State → Action → Option State) (event : State → Action → Option Event) :
    State → List Event → State → Prop where
  | refl (s : State) : Shows step event s [] s
  | silent {s t u : State} {events : List Event} {a : Action} (quiet : event s a = none)
      (next : step s a = some t) (rest : Shows step event t events u) : Shows step event s events u
  | visible {s t u : State} {e : Event} {events : List Event} {a : Action} (shown : event s a = some e)
      (next : step s a = some t) (rest : Shows step event t events u) :
      Shows step event s (e :: events) u

/-- Execute actions and collect the events they show. -/
def execShown (step : State → Action → Option State) (event : State → Action → Option Event) :
    State → List Action → Option (List Event × State)
  | s, [] => some ([], s)
  | s, a :: rest =>
    (step s a).bind fun t => (execShown step event t rest).map fun (events, u) =>
      ((event s a).toList ++ events, u)

section Observed
variable {step : State → Action → Option State} {event : State → Action → Option Event}
variable {step' : State' → Action' → Option State'} {event' : State' → Action' → Option Event}

theorem shows_append {s t u : State} {first second : List Event} (run : Shows step event s first t)
    (tail : Shows step event t second u) : Shows step event s (first ++ second) u := by
  induction run with
  | refl => exact tail
  | silent quiet next _ ih => exact .silent quiet next (ih tail)
  | visible shown next _ ih => exact .visible shown next (ih tail)

theorem shows_one {s t : State} {e : Event} {a : Action} (shown : event s a = some e)
    (next : step s a = some t) : Shows step event s [e] t :=
  .visible shown next (.refl t)

theorem shows_cons {s u : State} {e : Event} {events : List Event}
    (run : Shows step event s (e :: events) u) :
    ∃ before a after, Shows step event s [] before ∧ event before a = some e ∧
      step before a = some after ∧ Shows step event after events u := by
  generalize whole : e :: events = all at run
  induction run with
  | refl => cases whole
  | silent quiet next _ ih =>
    obtain ⟨before, a, after, start, shown, here, rest⟩ := ih whole
    exact ⟨before, a, after, .silent quiet next start, shown, here, rest⟩
  | visible shown next rest _ =>
    cases whole
    exact ⟨_, _, _, .refl _, shown, next, rest⟩

theorem execShown_shows {s t : State} {actions : List Action} {events : List Event}
    (run : execShown step event s actions = some (events, t)) : Shows step event s events t := by
  induction actions generalizing s events with
  | nil =>
    cases run
    exact .refl _
  | cons a rest ih =>
    obtain ⟨u, next, tail⟩ := Option.bind_eq_some_iff.mp run
    obtain ⟨⟨later, v⟩, shown, whole⟩ := Option.map_eq_some_iff.mp tail
    cases whole
    cases here : event s a with
    | none => exact .silent here next (ih shown)
    | some e => exact .visible here next (ih shown)

theorem shows_steps {s t : State} {events : List Event} (run : Shows step event s events t) :
    Steps step Any s t := by
  induction run with
  | refl => exact .refl _
  | silent _ next _ ih => exact steps_trans (steps_single trivial next) ih
  | visible _ next _ ih => exact steps_trans (steps_single trivial next) ih

theorem shows_quiet (Inv : State → Prop)
    (kept : ∀ s a t, Inv s → event s a = none → step s a = some t → Inv t)
    {s t : State} (run : Shows step event s [] t) (held : Inv s) : Inv t := by
  generalize none : ([] : List Event) = all at run
  induction run with
  | refl => exact held
  | silent quiet next _ ih => exact ih (kept _ _ _ held quiet next) none
  | visible _ _ _ _ => cases none

/-- The lockstep rule: a relation that quiet steps of either side keep, and a
    step of each side with the same event, holds where both have shown the same. -/
theorem shows_lockstep (R : State → State' → Prop)
    (left : ∀ s s' a t, R s s' → event s a = none → step s a = some t → R t s')
    (right : ∀ s s' a t', R s s' → event' s' a = none → step' s' a = some t' → R s t')
    (both : ∀ s s' e a a' t t', R s s' → event s a = some e → event' s' a' = some e →
      step s a = some t → step' s' a' = some t' → R t t')
    {s t : State} {s' t' : State'} {events : List Event} (run : Shows step event s events t)
    (run' : Shows step' event' s' events t') (related : R s s') : R t t' := by
  have quiet : ∀ {s : State} {s' t' : State'}, Shows step' event' s' [] t' → R s s' → R s t' :=
    fun run related => shows_quiet (R _) (fun _ _ _ held hush next => right _ _ _ _ held hush next) run related
  induction run generalizing s' with
  | refl => exact quiet run' related
  | silent hush next _ ih => exact ih run' (left _ _ _ _ related hush next)
  | visible shown next _ ih =>
    obtain ⟨before, a', after, start, shown', next', rest'⟩ := shows_cons run'
    exact ih rest' (both _ _ _ _ _ _ _ (quiet start related) shown shown' next next')

theorem shows_simulation (R : State → State' → Prop)
    (left : ∀ s s' a t, R s s' → event s a = none → step s a = some t → R t s')
    (answered : ∀ s s' e a t, R s s' → event s a = some e → step s a = some t →
      ∃ t', Shows step' event' s' [e] t' ∧ R t t')
    {s t : State} {s' : State'} {events : List Event} (run : Shows step event s events t)
    (related : R s s') : ∃ t', Shows step' event' s' events t' ∧ R t t' := by
  induction run generalizing s' with
  | refl => exact ⟨s', .refl s', related⟩
  | silent hush next _ ih => exact ih (left _ _ _ _ related hush next)
  | visible shown next _ ih =>
    obtain ⟨u', first, follows⟩ := answered _ _ _ _ _ related shown next
    obtain ⟨t', tail, ends⟩ := ih follows
    exact ⟨t', shows_append first tail, ends⟩

end Observed

end Transitions
