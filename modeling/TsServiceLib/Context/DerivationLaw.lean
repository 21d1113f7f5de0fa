import TsServiceLib.Context.AbortOrder

/-!
What a derived context takes from those it was derived from. Between the abort
events it is cancelled with any of them and with any signal joined on the way,
for the reason of the first that was aborted. A derivation reads and makes only
the signal and the deadline, and does so alike in both classes.
-/
namespace ContextDerivations
open Numbers AbortSignals Transitions

section Descent
variable {E : Type} {s t : System E} {counts : Derived → Prop}

/-- A signal that a context takes its cancellation from: that of a context it was
    derived from, or one joined on the way by a derivation that counts. -/
inductive Influence (counts : Derived → Prop) (s : System E) : Nat → Nat → Prop where
  | parent {c parent : Nat} {derived of : Derived} (found : s.contexts[c]? = some derived)
      (from_ : derived.parent = some parent) (there : s.contexts[parent]? = some of) :
      Influence counts s c of.context.signal
  | joined {c signal : Nat} {derived : Derived} (found : s.contexts[c]? = some derived)
      (joins : derived.joined = some signal) (counted : counts derived) : Influence counts s c signal
  | up {c parent signal : Nat} {derived : Derived} (found : s.contexts[c]? = some derived)
      (from_ : derived.parent = some parent) (rest : Influence counts s parent signal) : Influence counts s c signal

/-- The context was not yet cancelled when the signal was joined to it. -/
def JoinedLive (s : System E) (derived : Derived) : Prop :=
  ∀ parent of, derived.parent = some parent → s.contexts[parent]? = some of →
    (s.world.signal derived.context.signal).born ≠ some of.context.signal

/-- Where the signal of a context comes from. -/
inductive Descent (s : System E) (derived : Derived) : Prop where
  | root (alone : derived.parent = none) (own : derived.joined = none)
  | kept (parent : Nat) (of : Derived) (from_ : derived.parent = some parent) (there : s.contexts[parent]? = some of)
      (same : derived.context.signal = of.context.signal)
      (joined : ∀ other, derived.joined = some other → other = of.context.signal)
  | composed (parent : Nat) (of : Derived) (from_ : derived.parent = some parent)
      (there : s.contexts[parent]? = some of) (deadline : Number) (due : ℚ)
      (origin : (s.world.signal derived.context.signal).origin = .composed of.context.signal deadline due)
      (alone : derived.joined = none)
  | combined (parent : Nat) (of : Derived) (from_ : derived.parent = some parent)
      (there : s.contexts[parent]? = some of) (other : Nat)
      (origin : (s.world.signal derived.context.signal).origin = .combined [of.context.signal, other])
      (joined : derived.joined = some other)

theorem descent_later {a : Action E} {derived : Derived} (known : derived.context.signal < s.world.count)
    (next : step s a = some t) (descent : Descent s derived) : Descent t derived := by
  have enlarged := step_enlarged next
  have same := (step_grown next).origin derived.context.signal known
  cases descent with
  | root alone own => exact .root alone own
  | kept parent of from_ there same joined => exact .kept parent of from_ (enlarged_old enlarged there) same joined
  | composed parent of from_ there deadline due origin alone =>
    exact .composed parent of from_ (enlarged_old enlarged there) deadline due (same.trans origin) alone
  | combined parent of from_ there other origin joined =>
    exact .combined parent of from_ (enlarged_old enlarged there) other (same.trans origin) joined

theorem effect_descent {c : Nat} {of : Derived} {d : Derivation} {result : AnyContext} {w : World E}
    (there : t.contexts[c]? = some of) (world : t.world = w) (effect : Effect s.world of.context d result w) :
    Descent t { context := result, parent := parentBy c d, joined := joinedBy d } := by
  have attached : d ≠ .withoutCancellation → parentBy c d = some c := by
    intro other
    cases d <;> first
      | rfl
      | exact absurd rfl other
  cases effect with
  | kept parts joined deadline signal =>
    exact .kept c of (attached parts) there signal joined
  | composed limit parts alone deadline signal =>
    have made := (composeSignal_made s.world of.context.signal limit).2.origin s.world.count
    rw [create_signal, if_pos rfl] at made
    refine .composed c of (attached parts) there limit (s.world.now + platformDelay (timeUntil limit s.world.now)) ?_ alone
    rw [world, signal, made]
    rfl
  | combined other joins foreign deadline signal =>
    have made := (combineAbortSignals_made s.world of.context.signal other).2.origin s.world.count
    rw [create_signal, if_pos rfl] at made
    subst joins
    refine .combined c of rfl there other ?_ rfl
    rw [world, signal, made]
    rfl
  | detached parts deadline signal =>
    subst parts
    exact .root rfl rfl

def Descended (s : System E) : Prop := ∀ derived ∈ s.contexts, Descent s derived

theorem step_descended {a : Action E} (known : Known s) (descended : Descended s) (next : step s a = some t) :
    Descended t := by
  have old : ∀ derived ∈ s.contexts, Descent t derived := fun derived member =>
    descent_later (known derived member) next (descended derived member)
  intro derived member
  have enlarged := step_enlarged next
  cases enlarged with
  | same w => exact old derived member
  | fresh message signal =>
    rcases List.mem_append.mp member with before | new
    · exact old derived before
    · rw [List.mem_singleton] at new
      subst new
      exact .root rfl rfl
  | @derived c d here of found joinable result w effective effect =>
    rcases List.mem_append.mp member with before | new
    · exact old derived before
    · rw [List.mem_singleton] at new
      subst new
      have bound := (List.getElem?_eq_some_iff.mp found).1
      exact effect_descent (by rw [List.getElem?_append_left bound, found]) rfl effect

theorem reachable_descended (reach : Reachable s) : Descended s ∧ Known s := by
  have start : Descended ({} : System E) ∧ Known ({} : System E) := by
    constructor
    · intro derived member
      cases member
    · intro derived member
      cases member
  refine steps_invariant (fun s => Descended s ∧ Known s) ?_ reach start
  intro s a t held _ next
  exact ⟨step_descended held.2 held.1 next, step_known held.2 next⟩

theorem parent_aborted (woven : Woven s.world none) (descended : Descended s) (quiet : s.world.stack = []) {c parent : Nat}
    {derived of : Derived} (found : s.contexts[c]? = some derived) (from_ : derived.parent = some parent)
    (there : s.contexts[parent]? = some of) (ended : s.world.aborted of.context.signal = true) :
    s.world.aborted derived.context.signal = true := by
  have source : of.context.signal ∈ s.world.sources derived.context.signal → s.world.aborted derived.context.signal = true :=
    fun link => woven_quiet woven quiet link ended
  cases descended derived (List.mem_of_getElem? found) with
  | root alone => rw [alone] at from_; cases from_
  | kept parent' of' from' there' same =>
    rw [from_] at from'
    cases from'
    rw [there] at there'
    cases there'
    rwa [same]
  | composed parent' of' from' there' deadline due origin =>
    rw [from_] at from'
    cases from'
    rw [there] at there'
    cases there'
    apply source
    simp only [World.sources, origin, Origin.sources, List.mem_singleton]
  | combined parent' of' from' there' other origin =>
    rw [from_] at from'
    cases from'
    rw [there] at there'
    cases there'
    apply source
    simp only [World.sources, origin, Origin.sources, List.mem_cons, true_or]

/-- Between the events, a context is cancelled with everything that it takes its cancellation from. -/
theorem influence_aborted (woven : Woven s.world none) (descended : Descended s) (descending : Descending s)
    (quiet : s.world.stack = []) {c k : Nat} (influence : Influence counts s c k) {derived : Derived}
    (found : s.contexts[c]? = some derived) (ended : s.world.aborted k = true) :
    s.world.aborted derived.context.signal = true := by
  induction influence generalizing derived with
  | @parent c parent own of start from_ there =>
    obtain rfl := Option.some.inj (found.symm.trans start)
    exact parent_aborted woven descended quiet found from_ there ended
  | @joined c signal own start joins =>
    obtain rfl := Option.some.inj (found.symm.trans start)
    cases descended derived (List.mem_of_getElem? found) with
    | root alone own => rw [own] at joins; cases joins
    | kept parent of from_ there same joined => rwa [same, ← joined signal joins]
    | composed parent of from_ there deadline due origin alone => rw [alone] at joins; cases joins
    | combined parent of from_ there other origin joined =>
      rw [joined] at joins
      cases joins
      apply woven_quiet woven quiet _ ended
      simp only [World.sources, origin, Origin.sources, List.mem_cons, true_or, or_true]
  | @up c parent signal own start from_ rest ih =>
    obtain rfl := Option.some.inj (found.symm.trans start)
    obtain ⟨-, of, there, -⟩ := descending c derived parent found from_
    exact parent_aborted woven descended quiet found from_ there (ih there ended)

theorem heard_composed {w : World E} {k parent : Nat} {deadline : Number} {due : ℚ} (ordered : Ordered w)
    (origin : (w.signal k).origin = .composed parent deadline due) : heard w k = [parent] := by
  have sources : w.sources k = [parent] := by simp only [World.sources, origin, Origin.sources]
  unfold heard
  split
  · exact sources
  · rename_i found born
    have here := ordered.found k found born
    rw [sources, List.mem_singleton] at here
    rw [sources, here]
    simp

theorem heard_combined {w : World E} {k first second : Nat} (origin : (w.signal k).origin = .combined [first, second]) :
    first ∈ heard w k ∧ ((w.signal k).born ≠ some first → (∀ found, (w.signal k).born = some found → found ∈ w.sources k) →
      second ∈ heard w k) := by
  have sources : w.sources k = [first, second] := by simp only [World.sources, origin, Origin.sources]
  unfold heard
  cases born : (w.signal k).born with
  | none => simp [sources]
  | some found =>
    simp only [sources]
    constructor
    · by_cases here : first = found
      · simp [here]
      · rw [List.takeWhile_cons_of_pos (by simpa using here)]
        exact List.mem_append_left _ List.mem_cons_self
    · intro late member
      rcases List.mem_pair.mp (member found rfl) with here | here
      · exact absurd (by rw [here]) late
      · rw [here]
        exact List.mem_append_right _ (List.mem_singleton_self _)

theorem parent_wave (woven : Woven s.world none) (ordered : Ordered s.world) (descended : Descended s)
    (quiet : s.world.stack = []) {c parent : Nat} {derived of : Derived} (found : s.contexts[c]? = some derived)
    (from_ : derived.parent = some parent) (there : s.contexts[parent]? = some of)
    (ended : s.world.aborted of.context.signal = true) :
    (s.world.signal derived.context.signal).wave ≤ (s.world.signal of.context.signal).wave := by
  have own := parent_aborted woven descended quiet found from_ there ended
  cases descended derived (List.mem_of_getElem? found) with
  | root alone => rw [alone] at from_; cases from_
  | kept parent' of' from' there' same =>
    rw [from_] at from'
    cases from'
    rw [there] at there'
    cases there'
    rw [same]
  | composed parent' of' from' there' deadline due origin =>
    rw [from_] at from'
    cases from'
    rw [there] at there'
    cases there'
    apply ordered.first _ _ own _ ended
    rw [heard_composed ordered origin]
    exact List.mem_singleton_self _
  | combined parent' of' from' there' other origin =>
    rw [from_] at from'
    cases from'
    rw [there] at there'
    cases there'
    exact ordered.first _ _ own (heard_combined origin).1 ended

theorem influence_wave (woven : Woven s.world none) (ordered : Ordered s.world) (descended : Descended s)
    (descending : Descending s) (quiet : s.world.stack = []) {c k : Nat} (influence : Influence (JoinedLive s) s c k)
    {derived : Derived} (found : s.contexts[c]? = some derived) (ended : s.world.aborted k = true) :
    (s.world.signal derived.context.signal).wave ≤ (s.world.signal k).wave := by
  induction influence generalizing derived with
  | @parent c parent own of start from_ there =>
    obtain rfl := Option.some.inj (found.symm.trans start)
    exact parent_wave woven ordered descended quiet found from_ there ended
  | @joined c signal own start joins counted =>
    obtain rfl := Option.some.inj (found.symm.trans start)
    have after := influence_aborted woven descended descending quiet (.joined start joins counted) found ended
    cases descended derived (List.mem_of_getElem? found) with
    | root alone own => rw [own] at joins; cases joins
    | kept parent of from_ there same joined => rw [same, ← joined signal joins]
    | composed parent of from_ there deadline due origin alone => rw [alone] at joins; cases joins
    | combined parent of from_ there other origin joined =>
      rw [joined] at joins
      cases joins
      exact ordered.first _ _ after ((heard_combined origin).2 (counted parent of from_ there) (ordered.found _)) ended
  | @up c parent signal own start from_ rest ih =>
    obtain rfl := Option.some.inj (found.symm.trans start)
    obtain ⟨-, of, there, -⟩ := descending c derived parent found from_
    have before := influence_aborted woven descended descending quiet rest there ended
    exact Nat.le_trans (parent_wave woven ordered descended quiet found from_ there before) (ih there ended)

theorem influence_cause (ordered : Ordered s.world) (descended : Descended s) {c parent : Nat} {derived : Derived}
    (found : s.contexts[c]? = some derived) (from_ : derived.parent = some parent)
    (ended : s.world.aborted derived.context.signal = true) :
    (s.world.signal derived.context.signal).reason = some (.exceeded derived.context.signal) ∨
      ∃ k, Influence (JoinedLive s) s c k ∧ s.world.aborted k = true ∧
        (s.world.signal k).wave = (s.world.signal derived.context.signal).wave := by
  cases descended derived (List.mem_of_getElem? found) with
  | root alone => rw [alone] at from_; cases from_
  | kept parent' of from' there same =>
    refine .inr ⟨of.context.signal, .parent found from' there, ?_, ?_⟩
    · rwa [← same]
    · rw [same]
  | composed parent' of from' there deadline due origin =>
    rcases ordered.cause _ ended (by rw [origin]; intro root; cases root) with own | ⟨k, member, before, -, wave⟩
    · exact .inl own
    · rw [heard_composed ordered origin, List.mem_singleton] at member
      rw [member] at before wave
      exact .inr ⟨of.context.signal, .parent found from' there, before, wave⟩
  | combined parent' of from' there other origin joined =>
    rcases ordered.cause _ ended (by rw [origin]; intro root; cases root) with own | ⟨k, member, before, -, wave⟩
    · exact .inl own
    · have source := heard_sources ordered member
      simp only [World.sources, origin, Origin.sources, List.mem_cons, List.not_mem_nil, or_false] at source
      by_cases here : k = of.context.signal
      · rw [here] at before wave
        exact .inr ⟨of.context.signal, .parent found from' there, before, wave⟩
      · have joins : derived.joined = some k := by
          rw [joined, source.resolve_left here]
        refine .inr ⟨k, .joined found joins ?_, before, wave⟩
        -- a signal joined to a cancelled context is not heard
        intro parent'' of'' from'' there'' born
        rw [from'] at from''
        cases from''
        rw [there] at there''
        cases there''
        simp only [heard, born, World.sources, origin, Origin.sources] at member
        simp at member
        exact here member

theorem first_reason (woven : Woven s.world none) (ordered : Ordered s.world) (descended : Descended s)
    (descending : Descending s) (quiet : s.world.stack = []) {c first : Nat} {derived : Derived}
    (found : s.contexts[c]? = some derived) (influence : Influence (JoinedLive s) s c first)
    (ended : s.world.aborted first = true)
    (least : ∀ k, Influence (JoinedLive s) s c k → s.world.aborted k = true →
      (s.world.signal first).wave ≤ (s.world.signal k).wave) :
    (s.world.signal derived.context.signal).reason = (s.world.signal first).reason ∨
      ((s.world.signal derived.context.signal).reason = some (.exceeded derived.context.signal) ∧
        (s.world.signal derived.context.signal).wave < (s.world.signal first).wave) := by
  have own := influence_aborted woven descended descending quiet influence found ended
  have early := influence_wave woven ordered descended descending quiet influence found ended
  have parent : ∃ parent, derived.parent = some parent := by
    cases descended derived (List.mem_of_getElem? found) with
    | root alone none' =>
      cases influence with
      | parent start from_ =>
        obtain rfl := Option.some.inj (found.symm.trans start)
        exact ⟨_, from_⟩
      | joined start joins =>
        obtain rfl := Option.some.inj (found.symm.trans start)
        rw [none'] at joins
        cases joins
      | up start from_ =>
        obtain rfl := Option.some.inj (found.symm.trans start)
        exact ⟨_, from_⟩
    | kept parent of from_ => exact ⟨parent, from_⟩
    | composed parent of from_ => exact ⟨parent, from_⟩
    | combined parent of from_ => exact ⟨parent, from_⟩
  obtain ⟨parent, from_⟩ := parent
  rcases Nat.eq_or_lt_of_le early with equal | before
  · exact .inl (ordered.same _ _ own ended equal)
  · rcases influence_cause ordered descended found from_ own with exceeded | ⟨k, other, ended', wave⟩
    · exact .inr ⟨exceeded, before⟩
    · have bound := least k other ended'
      omega

end Descent

section Twins
variable {E : Type} {w : World E} {s t s' : System E}

/-- A derivation as it is in both classes: what it reads of the context is the
    signal and the deadline, and what it makes is a signal and a deadline. -/
def setDeadline (w : World E) (signal : Nat) (deadline effective : Option Number) : (Nat × Option Number) × World E :=
  if strictlyEqual effective deadline then ((signal, deadline), w)
  else (((composeSignal w signal effective).1, effective), (composeSignal w signal effective).2)

def outline (w : World E) (signal : Nat) (deadline : Option Number) : Derivation → (Nat × Option Number) × World E
  | .withDeadline requested => setDeadline w signal deadline (childDeadline deadline requested)
  | .bounded timeoutMs =>
    setDeadline w signal deadline (childDeadline deadline (some (boundedDeadline w.now deadline timeoutMs)))
  | .withExternalCancellation other =>
    if other = signal then ((signal, deadline), w)
    else (((combineAbortSignals w [signal, other]).1, deadline), (combineAbortSignals w [signal, other]).2)
  | .withoutCancellation => ((w.count, none), create w { origin := .root })
  | .fromContext => setDeadline w signal none deadline
  | _ => ((signal, deadline), w)

theorem Context.withDeadline_outline (state : ContextState) (requested : Option Number) :
    (((Context.withDeadline w state requested).1.signal, (Context.withDeadline w state requested).1.deadline),
      (Context.withDeadline w state requested).2) =
      setDeadline w state.signal state.deadline (childDeadline state.deadline requested) := by
  unfold Context.withDeadline setDeadline
  dsimp only
  split <;> rfl

theorem MessageContext.withDeadline_outline (base : ContextState) (state : MessageContextState) (requested : Option Number) :
    (((keepsThis base state (MessageContext.withDeadline w state requested)).1.signal,
      (keepsThis base state (MessageContext.withDeadline w state requested)).1.deadline),
      (keepsThis base state (MessageContext.withDeadline w state requested)).2) =
      setDeadline w state.signal state.deadline (childDeadline state.deadline requested) := by
  unfold MessageContext.withDeadline setDeadline
  dsimp only
  split <;> rfl

theorem MessageContext.fromContext_outline (context : AnyContext) :
    (((MessageContext.fromContext w context).1.signal, (MessageContext.fromContext w context).1.deadline),
      (MessageContext.fromContext w context).2) = setDeadline w context.signal none context.deadline := by
  unfold MessageContext.fromContext MessageContext.withDeadline
  cases context.deadline <;> rfl

theorem context_outline {state : ContextState} {d : Derivation} {result : AnyContext × World E}
    (derived : deriveContext w state d = some result) :
    ((result.1.signal, result.1.deadline), result.2) = outline w state.signal state.deadline d := by
  cases d <;> cases derived
  · exact Context.withDeadline_outline state _
  · exact Context.withDeadline_outline state _
  · simp only [outline, Context.withExternalCancellation]
    split <;> rfl
  · rfl
  · rfl
  · exact MessageContext.fromContext_outline (.context state)

theorem message_outline (base : ContextState) (state : MessageContextState) (d : Derivation) :
    (((deriveMessageContext w base state d).1.signal, (deriveMessageContext w base state d).1.deadline),
      (deriveMessageContext w base state d).2) = outline w state.signal state.deadline d := by
  cases d
  · exact MessageContext.withDeadline_outline base state _
  · exact MessageContext.withDeadline_outline base state _
  · simp only [outline, deriveMessageContext, MessageContext.withExternalCancellation]
    split <;> rfl
  · rfl
  · rfl
  · exact MessageContext.fromContext_outline (.messageContext base state)
  all_goals rfl

theorem derive_outline {d : Derivation} {context : AnyContext} {result : AnyContext × World E}
    (derived : derive w d context = some result) :
    ((result.1.signal, result.1.deadline), result.2) = outline w context.signal context.deadline d := by
  cases context with
  | context state => exact context_outline derived
  | messageContext base state =>
    cases derived
    exact message_outline base state d

def isMessage : AnyContext → Bool
  | .context _ => false
  | .messageContext _ _ => true

theorem message_derives {context : AnyContext} (message : isMessage context = true) (w : World E) (d : Derivation) :
    ∃ result, derive w d context = some result ∧ isMessage result.1 = true := by
  cases context with
  | context state => cases message
  | messageContext base state =>
    refine ⟨_, rfl, ?_⟩
    cases d <;> first
      | rfl
      | (unfold deriveMessageContext keepsThis; dsimp only; split <;> rfl)

/-- The other context is a `MessageContext` with the same signal, deadline and line. -/
structure Twin (one other : Derived) : Prop where
  message : isMessage other.context = true
  signal : other.context.signal = one.context.signal
  deadline : other.context.deadline = one.context.deadline
  parent : other.parent = one.parent
  joined : other.joined = one.joined

/-- Two systems whose signals are the same and whose contexts are twins. -/
structure Twins (s t : System E) : Prop where
  world : t.world = s.world
  length : t.contexts.length = s.contexts.length
  twin : ∀ (c : Nat) (one : Derived), s.contexts[c]? = some one → ∃ other, t.contexts[c]? = some other ∧ Twin one other

/-- The same action with a `MessageContext` to begin with. -/
def asMessage : Action E → Action E
  | .newContext _ signal => .newContext true signal
  | a => a

def stepAsMessage (t : System E) (a : Action E) : Option (System E) := step t (asMessage a)

theorem twins_append (twins : Twins s t) (world : World E) {one other : Derived} (twin : Twin one other) :
    Twins { world, contexts := s.contexts ++ [one] } { world, contexts := t.contexts ++ [other] } := by
  refine ⟨rfl, by simp only [List.length_append, twins.length, List.length_singleton], ?_⟩
  intro c derived found
  have bound := (List.getElem?_eq_some_iff.mp found).1
  rcases lt_or_ge c s.contexts.length with before | new
  · rw [List.getElem?_append_left before] at found
    obtain ⟨other', there, twin'⟩ := twins.twin c derived found
    exact ⟨other', by rw [List.getElem?_append_left (by rw [twins.length]; exact before), there], twin'⟩
  · simp only [List.length_append, List.length_singleton] at bound
    have last : c = s.contexts.length := by omega
    subst last
    rw [List.getElem?_concat_length] at found
    cases found
    refine ⟨other, ?_, twin⟩
    rw [← twins.length, List.getElem?_concat_length]

theorem twins_step {a : Action E} (twins : Twins s t) (next : step s a = some s') :
    ∃ t', stepAsMessage t a = some t' ∧ Twins s' t' := by
  have moved : ∀ w : World E, Twins { s with world := w } { t with world := w } := fun w => ⟨rfl, twins.length, twins.twin⟩
  cases a with
  | newContext message signal =>
    simp only [step] at next
    split at next
    · rename_i made
      cases next
      refine ⟨{ t with contexts := t.contexts ++ [{ context := newContext true signal }] }, ?_, ?_⟩
      · simp only [stepAsMessage, asMessage, step, twins.world, if_pos made]
      · have twin : Twin { context := newContext message signal } { context := newContext true signal } := by
          cases message <;> exact ⟨rfl, rfl, rfl, rfl, rfl⟩
        have both := twins_append twins s.world twin
        rw [twins.world]
        exact both
    · cases next
  | derive c d =>
    simp only [step] at next
    split at next
    · rename_i of found
      split at next
      · rename_i passed
        obtain ⟨result, derived, same⟩ := Option.map_eq_some_iff.mp next
        cases same
        obtain ⟨other, there, twin⟩ := twins.twin c of found
        obtain ⟨result', derived', message⟩ := message_derives twin.message s.world d
        have outlined := derive_outline derived
        have outlined' := derive_outline derived'
        rw [twin.signal, twin.deadline, ← outlined] at outlined'
        simp only [Prod.mk.injEq] at outlined'
        obtain ⟨⟨signal, deadline⟩, world⟩ := outlined'
        have passed' : joinable t d = true := by
          simp only [joinable, twins.world] at passed ⊢
          exact passed
        refine ⟨{ world := result'.2, contexts := t.contexts ++
          [{ context := result'.1, parent := parentBy c d, joined := joinedBy d }] }, ?_, ?_⟩
        · simp only [stepAsMessage, asMessage, step, there, passed', if_true, twins.world, derived', Option.map_some]
        · rw [world]
          exact twins_append twins _ ⟨message, signal, deadline, rfl, rfl⟩
      · cases next
    · cases next
  | newSignal =>
    cases next
    refine ⟨_, rfl, ?_⟩
    rw [twins.world]
    exact moved _
  | abort signal reason =>
    simp only [step] at next
    split at next <;> cases next
    rename_i owned
    refine ⟨{ t with world := abortFirst s.world signal (.given reason) }, ?_, moved _⟩
    simp only [stepAsMessage, asMessage, step, twins.world, if_pos owned]
  | elapse time =>
    simp only [step] at next
    split at next <;> cases next
    rename_i positive
    refine ⟨{ t with world := { s.world with now := s.world.now + time } }, ?_, moved _⟩
    simp only [stepAsMessage, asMessage, step, twins.world, if_pos positive]
  | fire child =>
    obtain ⟨w, fired, same⟩ := Option.map_eq_some_iff.mp next
    cases same
    refine ⟨{ t with world := w }, ?_, moved _⟩
    simp only [stepAsMessage, asMessage, step, twins.world, fired, Option.map_some]
  | advance =>
    obtain ⟨w, advanced, same⟩ := Option.map_eq_some_iff.mp next
    cases same
    refine ⟨{ t with world := w }, ?_, moved _⟩
    simp only [stepAsMessage, asMessage, step, twins.world, advanced, Option.map_some]

/-- What a system does, the system of the twins does too. -/
theorem twins_exec {actions : List (Action E)} (run : exec step {} actions = some s) :
    ∃ t, exec stepAsMessage {} actions = some t ∧ Twins s t := by
  have start : Twins ({} : System E) {} := ⟨rfl, rfl, by intro c one found; cases found⟩
  have matched : ∀ (s t : System E) (a : Action E) (s' : System E), True → Twins s t → step s a = some s' →
      ∃ t', stepAsMessage t a = some t' ∧ Twins s' t' := fun _ _ _ _ _ twins next => twins_step twins next
  exact exec_simulation (fun _ => True) Twins (fun _ _ _ _ _ => trivial) matched trivial start run

/- For every chain of derivations, in any run: the deadline of a derived context
   is at most that of every context on its line, or is not a number; between the
   abort events, which come to an end, the context is cancelled with any of the
   signals that it takes its cancellation from; where owners abort nothing while
   an event is in progress, it is so for the reason of the first of these that
   was aborted, unless its own deadline ran out before (a signal joined to a
   context that had been cancelled is left out); and the same chain of message
   contexts has the same deadlines and the same signals, in the same state. -/
theorem derivation_monotone (run : Steps step Any {} s) {c : Nat} {derived : Derived}
    (found : s.contexts[c]? = some derived) :
    (∀ a ancestor, Line s c a → s.contexts[a]? = some ancestor →
      Within derived.context.deadline ancestor.context.deadline) ∧
    ((∀ w, advance s.world = some w → effort w < effort s.world) ∧ (s.world.stack ≠ [] → ∃ w, advance s.world = some w)) ∧
    (s.world.stack = [] → ∀ k, Influence (fun _ => True) s c k → s.world.aborted k = true →
      s.world.aborted derived.context.signal = true) ∧
    (s.world.stack = [] → Steps step Unnested {} s → ∀ first, Influence (JoinedLive s) s c first →
      s.world.aborted first = true →
      (∀ k, Influence (JoinedLive s) s c k → s.world.aborted k = true →
        (s.world.signal first).wave ≤ (s.world.signal k).wave) →
      (s.world.signal derived.context.signal).reason = (s.world.signal first).reason ∨
        ((s.world.signal derived.context.signal).reason = some (.exceeded derived.context.signal) ∧
          (s.world.signal derived.context.signal).wave < (s.world.signal first).wave)) ∧
    (∀ actions, exec step {} actions = some s → ∃ t other, exec stepAsMessage {} actions = some t ∧
      t.contexts[c]? = some other ∧ isMessage other.context = true ∧ t.world = s.world ∧
      other.context.signal = derived.context.signal ∧ other.context.deadline = derived.context.deadline) := by
  have woven := (reachable_woven run).1
  have descended := (reachable_descended run).1
  have descending := reachable_descending run
  refine ⟨?_, ?_, ?_, ?_, ?_⟩
  · intro a ancestor line there
    exact line_within descending line found there
  · exact ⟨fun w next => advance_effort woven next, advance_enabled⟩
  · intro quiet k influence ended
    exact influence_aborted woven descended descending quiet influence found ended
  · intro quiet unnested first influence ended least
    exact first_reason woven (unnested_ordered unnested) descended descending quiet found influence ended least
  · intro actions same
    obtain ⟨t, followed, twins⟩ := twins_exec same
    obtain ⟨other, there, twin⟩ := twins.twin c derived found
    exact ⟨t, other, followed, there, twin.message, twins.world, twin.signal, twin.deadline⟩

def unnested (s : System E) : Action E → Bool
  | .abort _ _ => s.world.stack.isEmpty
  | _ => true

theorem unnested_sound {a : Action E} (passed : unnested s a = true) : Unnested s a := by
  cases a with
  | abort signal reason => exact List.isEmpty_iff.mp passed
  | _ => trivial

/-- The signal, the deadline and the line of a context. -/
def summary (derived : Derived) : Nat × Option Number × Option Nat × Option Nat :=
  (derived.context.signal, derived.context.deadline, derived.parent, derived.joined)

/-- A signal joined to a context cancels one derived from that with a deadline. -/
theorem derivation_monotone_joined : ∃ (s : System Nat) (derived : Derived), Steps step Any {} s ∧
    s.contexts[2]? = some derived ∧ (s.world.signal 1).reason = some (.given 7) ∧
    s.world.aborted derived.context.signal = true ∧
    ((s.world.signal derived.context.signal).reason = some (.given 7) ∨
      (s.world.signal derived.context.signal).reason = some (.exceeded derived.context.signal)) := by
  have evaluated : ((execWhere (step (E := Nat)) unnested {}
      [.newSignal, .newSignal, .newContext false 0, .derive 0 (.withExternalCancellation 1),
        .derive 1 (.bounded (.finite 1000)), .abort 1 7, .advance, .advance, .advance, .advance, .advance]).any fun s =>
        decide (s.contexts.map summary =
          [(0, none, none, none), (2, none, some 0, some 1), (3, some (.finite 1000), some 1, none)] ∧
          s.world.stack = [] ∧ s.world.signal 1 = { origin := .root, reason := some (.given 7) } ∧
          (s.world.signal 2).born = none)) = true := by
    decide +kernel
  simp only [Option.any_eq_true, decide_eq_true_eq] at evaluated
  obtain ⟨s, reached, contexts, quiet, owner, unborn⟩ := evaluated
  have unnested' : Steps step Unnested {} s := execWhere_steps (fun _ _ passed => unnested_sound passed) reached
  have run : Steps step Any {} s := steps_mono (fun _ _ _ => trivial) unnested'
  obtain ⟨first, second, third, list⟩ : ∃ first second third, s.contexts = [first, second, third] := by
    have length := congrArg List.length contexts
    simp only [List.length_map, List.length_cons, List.length_nil] at length
    exact List.length_eq_three.mp length
  rw [list] at contexts
  simp only [List.map_cons, List.map_nil, List.cons.injEq, summary, Prod.mk.injEq, and_true] at contexts
  obtain ⟨⟨signal, -, -⟩, ⟨signal', -, parent', joined⟩, ⟨signal'', -, parent, -⟩⟩ := contexts
  have found : s.contexts[2]? = some third := by
    rw [list]
    rfl
  have above : s.contexts[1]? = some second := by
    rw [list]
    rfl
  have live : JoinedLive s second := by
    intro _ of _ _
    rw [signal', unborn]
    intro same
    cases same
  have reason : (s.world.signal 1).reason = some (.given 7) := by rw [owner]
  have wave : (s.world.signal 1).wave = 0 := by rw [owner]
  have ended : s.world.aborted 1 = true := by
    rw [World.aborted, reason]
    rfl
  obtain ⟨-, -, cancelled, because, -⟩ := derivation_monotone run found
  refine ⟨s, third, run, found, reason, ?_, ?_⟩
  · exact cancelled quiet 1 (.up found parent (.joined above joined trivial)) ended
  · have outcome := because quiet unnested' 1 (.up found parent (.joined above joined live)) ended (by
      intro k _ _
      rw [wave]
      exact Nat.zero_le _)
    rcases outcome with carried | ⟨own, -⟩
    · exact .inl (carried.trans reason)
    · exact .inr own

theorem reaches_of_exec (actions : List (Action E)) {p : System E → Prop} [DecidablePred p]
    (evaluated : ((exec step {} actions).any fun s => decide (p s)) = true) : ∃ s, Steps step Any {} s ∧ p s := by
  simp only [Option.any_eq_true, decide_eq_true_eq] at evaluated
  obtain ⟨s, reached, holds⟩ := evaluated
  exact ⟨s, exec_steps reached, holds⟩

/-- Where more was said: a signal joined to a context that has been cancelled
    keeps its reason to itself, even if it was aborted first; the own deadline of
    a context may be the first to cancel it; a deadline that is not a number is
    no earlier than another; a signal aborted while the event of another is in
    progress may come before it; and a listener called early finds contexts that
    are to be cancelled after it. -/
theorem derivation_deviates :
    (∃ s : System Nat, Steps step Any {} s ∧
      s.contexts.map summary = [(0, none, none, none), (2, none, some 0, some 1)] ∧ s.world.stack = [] ∧
      (s.world.signal 1).reason = some (.given 1) ∧ (s.world.signal 0).reason = some (.given 0) ∧
      (s.world.signal 1).wave < (s.world.signal 0).wave ∧ (s.world.signal 2).reason = some (.given 0)) ∧
    (∃ s : System Nat, Steps step Any {} s ∧
      s.contexts.map summary = [(0, none, none, none), (1, some (.finite 5), some 0, none)] ∧ s.world.stack = [] ∧
      (s.world.signal 0).reason = some (.given 0) ∧ (s.world.signal 1).reason = some (.exceeded 1)) ∧
    (∃ s : System Nat, Steps step Any {} s ∧
      s.contexts.map summary =
        [(0, none, none, none), (1, some (.finite 5), some 0, none), (2, some .nan, some 1, none)] ∧
      lessOrEqual .nan (.finite 5) = false) ∧
    (∃ s : System Nat, Steps step Any {} s ∧
      s.contexts.map summary = [(0, none, none, none), (2, none, some 0, some 1)] ∧ s.world.stack = [] ∧
      (s.world.signal 0).reason = some (.given 0) ∧ (s.world.signal 1).reason = some (.given 1) ∧
      (s.world.signal 0).wave < (s.world.signal 1).wave ∧ (s.world.signal 2).reason = some (.given 1)) ∧
    ∃ s : System Nat, Steps step Any {} s ∧
      s.contexts.map summary = [(0, none, none, none), (2, none, some 0, some 1)] ∧
      s.world.aborted 0 = true ∧ s.world.aborted 2 = false := by
  refine ⟨?_, ?_, ?_, ?_, ?_⟩
  · exact reaches_of_exec [.newSignal, .newSignal, .newContext false 0, .abort 1 1, .abort 0 0,
      .derive 0 (.withExternalCancellation 1)] (by decide +kernel)
  · exact reaches_of_exec [.newSignal, .newContext false 0, .derive 0 (.withDeadline (some (.finite 5))),
      .elapse 5, .fire 1, .abort 0 0] (by decide +kernel)
  · exact reaches_of_exec [.newSignal, .newContext false 0, .derive 0 (.withDeadline (some (.finite 5))),
      .derive 1 (.withDeadline (some .nan))] (by decide +kernel)
  · exact reaches_of_exec [.newSignal, .newSignal, .newContext false 0,
      .derive 0 (.withExternalCancellation 1), .abort 0 0, .abort 1 1, .advance, .advance, .advance, .advance,
      .advance] (by decide +kernel)
  · exact reaches_of_exec [.newSignal, .newSignal, .newContext false 0,
      .derive 0 (.withExternalCancellation 1), .abort 0 0] (by decide +kernel)

end Twins

end ContextDerivations
