import TsServiceLib.Operators.SubStream
import Mathlib.Tactic.Common

/-!
What an action of a SubStream does, once for all the invariants. Most of what
the code does is passive: it finishes a call, moves a `consume` on or drops a
delivery. The moves list what is left: a job is queued or run, a callback starts
or ends, a delivery waits, a call is made or is about to return.
-/
namespace SubStreams
open Function Transitions LocalValues
variable {V : Type}

/-- The promise that `close` found in `#active`, from then on. -/
def Phase.awaited : Phase → Option (Option Nat)
  | .closing awaited _ => some awaited
  | .returned awaited _ => some awaited
  | _ => none

def Phase.isOver : Phase → Bool
  | .returned _ _ => true
  | _ => false

/-- A signal is aborted or a deadline has passed. -/
def State.off (s : State V) (scope : Nat) : Bool := s.aborted.contains scope || s.expired.contains scope

/-- From the first state to the second no callback starts or ends, no job or
    waiting delivery moves, and no call is made or starts to close. -/
structure Passive (s t : State V) : Prop where
  calls : t.calls = s.calls
  caller : ∀ c, (t.call c).caller = (s.call c).caller
  active : ∀ c, (t.call c).active = (s.call c).active
  awaited : ∀ c, (t.call c).phase.awaited = (s.call c).phase.awaited
  isOver : ∀ c, (t.call c).phase.isOver = (s.call c).phase.isOver
  closed : ∀ c, (s.call c).closed = true → (t.call c).closed = true
  held : ∀ c, (t.call c).closed = false →
    (t.call c).context = (s.call c).context ∧ (t.call c).collector = (s.call c).collector
  emissions : t.emissions = s.emissions
  callbacks : t.callbacks = s.callbacks
  callback : t.callback = s.callback
  reactions : t.reactions = s.reactions
  jobs : t.jobs = s.jobs
  stack : t.stack = s.stack
  off : ∀ scope, s.off scope = true → t.off scope = true
  log : ∃ news, t.log = news ++ s.log ∧ (∀ c e, .started c e ∉ news) ∧
    (∀ c, .closed c ∈ news → (s.call c).closed = false ∧ (t.call c).closed = true) ∧
    (∀ scope, .cancelled scope ∈ news → t.off scope = true)

theorem Passive.refl (s : State V) : Passive s s := by
  constructor <;> try first | (intros; rfl) | (intros; assumption)
  · intro c _
    exact ⟨rfl, rfl⟩
  · exact ⟨[], by simp⟩

theorem Passive.trans {s t u : State V} (first : Passive s t) (second : Passive t u) : Passive s u where
  calls := second.calls.trans first.calls
  caller c := (second.caller c).trans (first.caller c)
  active c := (second.active c).trans (first.active c)
  awaited c := (second.awaited c).trans (first.awaited c)
  isOver c := (second.isOver c).trans (first.isOver c)
  closed c closed := second.closed c (first.closed c closed)
  held c still := by
    have open' : (t.call c).closed = false := by
      by_contra shut
      rw [second.closed c (by simpa using shut)] at still
      cases still
    obtain ⟨context, collector⟩ := second.held c still
    obtain ⟨context', collector'⟩ := first.held c open'
    exact ⟨context.trans context', collector.trans collector'⟩
  emissions := second.emissions.trans first.emissions
  callbacks := second.callbacks.trans first.callbacks
  callback := second.callback.trans first.callback
  reactions := second.reactions.trans first.reactions
  jobs := second.jobs.trans first.jobs
  stack := second.stack.trans first.stack
  off scope off := second.off scope (first.off scope off)
  log := by
    obtain ⟨news, split, quiet, shut, offs⟩ := first.log
    obtain ⟨news', split', quiet', shut', offs'⟩ := second.log
    refine ⟨news' ++ news, by rw [split', split, List.append_assoc], ?_, ?_, ?_⟩
    · intro c e mem
      rcases List.mem_append.mp mem with mem | mem
      · exact quiet' c e mem
      · exact quiet c e mem
    · intro c mem
      rcases List.mem_append.mp mem with mem | mem
      · refine ⟨?_, (shut' c mem).2⟩
        by_contra before
        have still := (shut' c mem).1
        rw [first.closed c (by simpa using before)] at still
        cases still
      · exact ⟨(shut c mem).1, second.closed c (shut c mem).2⟩
    · intro scope mem
      rcases List.mem_append.mp mem with mem | mem
      · exact offs' scope mem
      · exact second.off scope (offs scope mem)

theorem passive_enter (s : State V) {e : Event} (plain : ∀ c d, e ≠ .started c d) (unclosed : ∀ c, e ≠ .closed c)
    (off : ∀ scope, e = .cancelled scope → s.off scope = true) : Passive s (s.enter e) where
  __ := Passive.refl s
  log := by
    refine ⟨[e], rfl, fun c d mem => ?_, fun c mem => ?_, fun scope mem => ?_⟩
    · exact plain c d (List.mem_singleton.mp mem).symm
    · exact absurd (List.mem_singleton.mp mem).symm (unclosed c)
    · exact off scope (List.mem_singleton.mp mem).symm

theorem passive_dropped (s : State V) (c e : Nat) : Passive s (s.enter (.dropped c e)) :=
  passive_enter s nofun nofun nofun

theorem passive_ended (s : State V) (c e : Nat) : Passive s (s.enter (.ended c e)) :=
  passive_enter s nofun nofun nofun

theorem passive_setCall (s : State V) (c : Nat) (call : SubStreamCall) (caller : call.caller = (s.call c).caller)
    (active : call.active = (s.call c).active) (awaited : call.phase.awaited = (s.call c).phase.awaited)
    (isOver : call.phase.isOver = (s.call c).phase.isOver) (closed : (s.call c).closed = true → call.closed = true)
    (held : call.closed = false → call.context = (s.call c).context ∧ call.collector = (s.call c).collector) :
    Passive s (s.setCall c call) where
  calls := rfl
  caller := forall_update_iff (p := fun c' call' => call'.caller = (s.call c').caller) s.call |>.mpr ⟨caller, fun _ _ => rfl⟩
  active := forall_update_iff (p := fun c' call' => call'.active = (s.call c').active) s.call |>.mpr ⟨active, fun _ _ => rfl⟩
  awaited := forall_update_iff (p := fun c' call' => call'.phase.awaited = (s.call c').phase.awaited) s.call |>.mpr
    ⟨awaited, fun _ _ => rfl⟩
  isOver := forall_update_iff (p := fun c' call' => call'.phase.isOver = (s.call c').phase.isOver) s.call |>.mpr
    ⟨isOver, fun _ _ => rfl⟩
  closed := forall_update_iff (p := fun c' call' => (s.call c').closed = true → call'.closed = true) s.call |>.mpr
    ⟨closed, fun _ _ => id⟩
  held := forall_update_iff (p := fun c' call' => call'.closed = false →
      call'.context = (s.call c').context ∧ call'.collector = (s.call c').collector) s.call |>.mpr
    ⟨held, fun _ _ _ => ⟨rfl, rfl⟩⟩
  emissions := rfl
  callbacks := rfl
  callback := rfl
  reactions := rfl
  jobs := rfl
  stack := rfl
  off _ off := off
  log := ⟨[], rfl, by simp, by simp, by simp⟩

theorem passive_finish (s : State V) (c : Nat) (error : Option Failure) : Passive s (s.finish c error) := by
  unfold State.finish
  split
  · exact .refl s
  · rename_i still
    have shut := passive_setCall s c
      { s.call c with closed := true, failure := error, collector := false, context := none }
      rfl rfl rfl rfl (fun _ => rfl) nofun
    refine { shut with log := ⟨[.closed c], rfl, by simp, ?_, by simp⟩ }
    intro c' mem
    simp only [List.mem_singleton, Event.closed.injEq] at mem
    subst mem
    exact ⟨by simpa using still, by simp [State.enter, State.setCall]⟩

theorem finish_closed (s : State V) (c : Nat) (error : Option Failure) : ((s.finish c error).call c).closed = true := by
  unfold State.finish
  split
  · assumption
  · simp [State.enter, State.setCall]

/-- A `consume` that moves on, without coming to `close` or returning. -/
theorem passive_phase (s : State V) (c : Nat) {phase : Phase} (before : (s.call c).phase.awaited = none)
    (running : (s.call c).phase.isOver = false) (awaited : phase.awaited = none) (isOver : phase.isOver = false) :
    Passive s (s.setCall c { s.call c with phase := phase }) := by
  apply passive_setCall s c { s.call c with phase := phase }
  · rfl
  · rfl
  · rw [before, awaited]
  · rw [running, isOver]
  · exact id
  · intro _
    exact ⟨rfl, rfl⟩

theorem passive_off (s : State V) (aborted expired : List Nat) (scope : Nat)
    (grows : ∀ other, s.off other = true → ({ s with aborted := aborted, expired := expired } : State V).off other = true)
    (off : ({ s with aborted := aborted, expired := expired } : State V).off scope = true) :
    Passive s (({ s with aborted := aborted, expired := expired } : State V).enter (.cancelled scope)) := by
  have kept : Passive s { s with aborted := aborted, expired := expired } :=
    { Passive.refl s with off := grows, log := ⟨[], rfl, by simp, by simp, by simp⟩ }
  apply kept.trans
  apply passive_enter
  · exact nofun
  · exact nofun
  · intro other same
    cases same
    exact off

theorem passive_abort (s : State V) (scope : Nat) :
    Passive s (({ s with aborted := scope :: s.aborted } : State V).enter (.cancelled scope)) := by
  apply passive_off s (scope :: s.aborted) s.expired scope
  · intro other off
    simp only [State.off, List.contains_cons, Bool.or_eq_true] at off ⊢
    rcases off with aborted | expired
    · exact .inl (.inr aborted)
    · exact .inr expired
  · simp [State.off]

theorem passive_expire (s : State V) (scope : Nat) :
    Passive s (({ s with expired := scope :: s.expired } : State V).enter (.cancelled scope)) := by
  apply passive_off s s.aborted (scope :: s.expired) scope
  · intro other off
    simp only [State.off, List.contains_cons, Bool.or_eq_true] at off ⊢
    rcases off with aborted | expired
    · exact .inl aborted
    · exact .inr (.inr expired)
  · simp [State.off]

/-- A call that is not closed holds the caller's context and the collector. -/
def Held (s : State V) : Prop :=
  ∀ c, (s.call c).closed = false → (s.call c).context = some (s.call c).caller ∧ (s.call c).collector = true

/-- What becomes of a delivery: it comes too late, it waits, or it starts a callback. -/
inductive Delivered (s : State V) (c e : Nat) (t : State V) : Prop where
  | dropped (passive : Passive s t) (closed : (t.call c).closed = true)
  | waits {k : Nat} (active : (s.call c).active = some k)
      (result : t = { s with reactions := s.reactions ++ [(k, .wake c e)] })
  | starts (still : (s.call c).closed = false) (free : (s.call c).active = none)
      (uncancelled : s.off (s.call c).caller.scope = false)
      (result : t = { s.enter (.started c e) with stack := .callback c e :: s.stack })

theorem delivered (s : State V) (held : Held s) (c e : Nat) : Delivered s c e (s.deliver c e) := by
  unfold State.deliver
  split
  · rename_i shut
    exact .dropped (passive_dropped s c e) shut
  · rename_i still
    have still : (s.call c).closed = false := by simpa using still
    obtain ⟨context, collector⟩ := held c still
    split
    · rename_i k active
      exact .waits active rfl
    · rename_i free
      rw [context, collector]
      simp only
      split
      · have shut := finish_closed s c (some .cancelled)
        exact .dropped ((passive_finish s c _).trans (passive_dropped _ c e)) shut
      · rename_i uncancelled
        exact .starts still free (by simpa [State.cancelled, State.off] using uncancelled) rfl

/-- The moves of a SubStream, up to passive changes. -/
inductive Move (s : State V) (a : Action V) (t : State V) : Prop where
  | idle (passive : Passive s t)
  | post (result : t = s.queue [.foreign])
  | watch {k : Nat} (made : k < s.callbacks) (open' : (s.callback k).stage ≠ .settled)
      (result : t = { s with reactions := s.reactions ++ [(k, .foreign)] })
  | foreign {rest : List Job} (alone : s.stack = []) (head : s.jobs = .foreign :: rest)
      (result : t = { s with jobs := rest, stack := [.foreign] })
  | leave {below : List Frame} (top : s.stack = .foreign :: below) (result : t = { s with stack := below })
  | emit {context : MessageContext} {v : V} {noted : State V} (action : a = .emit context v) (running : s.stack ≠ [])
      (genuine : issued s.callers context = true)
      (notes : noted = { s.enter (.emitted s.emissions.length) with emissions := s.emissions ++ [⟨context, v⟩] })
      (result : match context.localValue .call with
        | some c => Delivered noted c s.emissions.length t
        | none => t = noted)
  | wake {c e : Nat} {rest : List Job} (alone : s.stack = []) (head : s.jobs = .wake c e :: rest)
      (result : Delivered { s with jobs := rest } c e t)
  | made {caller : MessageContext} (genuine : issued s.callers caller = true)
      (result : t = { s.setCall s.calls { caller := caller, context := some caller, collector := true, active := none,
                                          closed := false, failure := none, phase := .body } with
                      calls := s.calls + 1 })
  | refused {caller : MessageContext} (genuine : issued s.callers caller = true)
      (result : t = { (s.setCall s.calls { caller := caller, context := none, collector := false, active := none,
                                           closed := true, failure := some .cancelled,
                                           phase := .closing none (some .cancelled) }).enter (.closed s.calls) with
                      calls := s.calls + 1 })
  | ends {c e : Nat} {below : List Frame} (top : s.stack = .callback c e :: below)
      (passive : Passive { s with stack := below } t)
  | promises {c e : Nat} {below : List Frame} (top : s.stack = .callback c e :: below)
      (result : t = { s.setCall c { s.call c with active := some s.callbacks } with
                      stack := below
                      callbacks := s.callbacks + 1
                      callback := update s.callback s.callbacks ⟨c, e, .pending⟩ })
  | settles {k : Nat} {outcome : Outcome} (made : k < s.callbacks) (pending : (s.callback k).stage = .pending)
      (passive : Passive ((s.stageOf k .settling).queue [.react k outcome]) t)
  | react {k : Nat} {outcome : Outcome} {fulfilled : Bool} {rest : List Job} (alone : s.stack = [])
      (head : s.jobs = .react k outcome :: rest) (passive : Passive { s with jobs := rest ++ [.clear k fulfilled] } t)
      (failed : fulfilled = false → (t.call (s.callback k).call).closed = true)
  | clear {k : Nat} {fulfilled : Bool} {rest : List Job} (alone : s.stack = [])
      (head : s.jobs = .clear k fulfilled :: rest)
      (result : t = { s.setCall (s.callback k).call { s.call (s.callback k).call with active := none } with
                      jobs := rest ++ [.relay k, .adopt k fulfilled] })
  | relay {k : Nat} {rest : List Job} (alone : s.stack = []) (head : s.jobs = .relay k :: rest)
      (result : t = { s with jobs := rest })
  | adopt {k : Nat} {fulfilled : Bool} {rest : List Job} (alone : s.stack = [])
      (head : s.jobs = .adopt k fulfilled :: rest) (result : t = { s with jobs := rest ++ [.settle k fulfilled] })
  | settle {k : Nat} {fulfilled : Bool} {rest : List Job} (alone : s.stack = [])
      (head : s.jobs = .settle k fulfilled :: rest)
      (result : t = { s.stageOf k .settled with
                      jobs := rest ++ ((s.reactions.filter fun r => r.1 = k).map Prod.snd).filter (State.passes fulfilled)
                      reactions := s.reactions.filter fun r => r.1 ≠ k })
  | closes {c : Nat} {outcome : Option Failure} {finished : State V} (alone : s.stack = [])
      (before : (s.call c).phase.awaited = none) (passive : Passive s finished)
      (shut : (finished.call c).closed = true)
      (result : t = finished.setCall c
        { finished.call c with phase := .closing (finished.call c).active outcome })
  | returns {c : Nat} {awaited : Option Nat} {outcome : Option Failure}
      (before : (s.call c).phase = .closing awaited outcome)
      (settled : ∀ k, awaited = some k → (s.callback k).stage = .settled)
      (result : t = (s.setCall c { s.call c with phase := .returned awaited outcome }).enter (.returned c))

theorem finish_queue (s : State V) (c : Nat) (error : Option Failure) (jobs : List Job) :
    (s.finish c error).queue jobs = (s.queue jobs).finish c error := by
  unfold State.finish
  by_cases shut : (s.call c).closed = true
  · rw [if_pos shut]
    exact (if_pos shut).symm
  · rw [if_neg shut]
    exact (if_neg shut).symm

/-- The handlers of `then` finish the call or leave it, and queue the one of `finally`. -/
theorem react_passive (s : State V) (k : Nat) (outcome : Outcome) (rest : List Job) : ∃ fulfilled : Bool,
    Passive { s with jobs := rest ++ [.clear k fulfilled] } (({ s with jobs := rest } : State V).runJob (.react k outcome)) ∧
      (fulfilled = false →
        ((({ s with jobs := rest } : State V).runJob (.react k outcome)).call (s.callback k).call).closed = true) := by
  cases outcome with
  | done enough =>
    refine ⟨true, ?_, nofun⟩
    cases enough with
    | true =>
      simp only [State.runJob, if_true]
      rw [finish_queue]
      exact passive_finish _ _ none
    | false => exact .refl _
  | failed error =>
    refine ⟨false, ?_, fun _ => finish_closed _ _ _⟩
    simp only [State.runJob]
    rw [finish_queue]
    exact passive_finish _ _ _

theorem runJob_move (s : State V) {a : Action V} (held : Held s) (alone : s.stack = []) {job : Job} {rest : List Job}
    (head : s.jobs = job :: rest) : Move s a (({ s with jobs := rest } : State V).runJob job) := by
  cases job with
  | foreign => exact .foreign alone head (by simp [State.runJob, alone])
  | react k outcome =>
    obtain ⟨fulfilled, passive, failed⟩ := react_passive s k outcome rest
    exact .react alone head passive failed
  | clear k fulfilled => exact .clear alone head rfl
  | relay k => exact .relay alone head rfl
  | adopt k fulfilled => exact .adopt alone head rfl
  | settle k fulfilled => exact .settle alone head rfl
  | wake c e =>
    apply Move.wake alone head
    apply delivered
    exact held

theorem close_move (s : State V) {a : Action V} (alone : s.stack = []) (c : Nat) (before : (s.call c).phase.awaited = none)
    (outcome : Option Failure) : Move s a (s.close c outcome) :=
  .closes alone before (passive_finish s c none) (finish_closed s c none) rfl

theorem consume_move (s : State V) {a : Action V} {caller : MessageContext} (genuine : issued s.callers caller = true) :
    Move s a (s.consume caller) := by
  unfold State.consume
  simp only
  split
  · apply Move.refused genuine
    simp [State.finish, State.setCall, State.enter]
  · exact .made genuine rfl

theorem answer_move (s : State V) {a : Action V} {c e : Nat} {below : List Frame} (top : s.stack = .callback c e :: below)
    (reply : Reply) : Move s a (({ s with stack := below } : State V).answer c e reply) := by
  cases reply with
  | returns enough =>
    apply Move.ends top
    cases enough with
    | true => exact (passive_ended _ c e).trans (passive_finish _ c none)
    | false => exact passive_ended _ c e
  | promises => exact .promises top rfl
  | throws error =>
    apply Move.ends top
    exact (passive_ended _ c e).trans (passive_finish _ c _)

theorem resume_move (s t : State V) {a : Action V} (alone : s.stack = []) (c : Nat) (next : s.resume c = some t) : Move s a t := by
  unfold State.resume at next
  split at next
  · cases next
  · rename_i phase
    cases next
    apply Move.idle
    apply passive_phase s c
    all_goals simp [phase, Phase.awaited, Phase.isOver]
  · rename_i failure phase
    cases next
    exact close_move s alone c (by simp [phase, Phase.awaited]) _
  · rename_i phase
    split at next
    · cases next
      exact close_move s alone c (by simp [phase, Phase.awaited]) _
    · cases next
  · rename_i awaited outcome phase
    split at next
    · rename_i settled
      cases next
      exact .returns phase settled rfl
    · cases next
  · cases next

theorem step_move {s t : State V} {a : Action V} (held : Held s) (next : step s a = some t) : Move s a t := by
  cases a with
  | post =>
    cases next
    exact .post rfl
  | watch k =>
    simp only [step, Option.ite_none_right_eq_some, Option.some.injEq] at next
    obtain ⟨⟨made, open'⟩, rfl⟩ := next
    exact .watch made open' rfl
  | run =>
    simp only [step] at next
    split at next
    · rename_i job rest alone head
      cases next
      exact runJob_move s held alone head
    · cases next
  | leave =>
    simp only [step] at next
    split at next
    · rename_i below top
      cases next
      exact .leave top rfl
    · cases next
  | emit context value =>
    simp only [step, Option.ite_none_right_eq_some, Option.some.injEq] at next
    obtain ⟨⟨running, genuine⟩, rfl⟩ := next
    apply Move.emit rfl running genuine rfl
    cases target : context.localValue .call with
    | some c =>
      simp only [State.emit, target]
      apply delivered
      exact held
    | none => simp only [State.emit, target]
  | consume caller =>
    simp only [step, Option.ite_none_right_eq_some, Option.some.injEq] at next
    obtain ⟨⟨_, genuine⟩, rfl⟩ := next
    exact consume_move s genuine
  | answer reply =>
    simp only [step] at next
    split at next
    · rename_i c e below top
      cases next
      exact answer_move s top reply
    · cases next
  | settle k outcome =>
    simp only [step, Option.ite_none_right_eq_some, Option.some.injEq] at next
    obtain ⟨⟨made, pending⟩, rfl⟩ := next
    exact .settles made pending (passive_ended _ _ _)
  | abort scope =>
    cases next
    exact .idle (passive_abort s scope)
  | expire scope =>
    cases next
    exact .idle (passive_expire s scope)
  | signalled c =>
    simp only [step, Option.ite_none_right_eq_some, Option.some.injEq] at next
    obtain ⟨_, rfl⟩ := next
    exact .idle (passive_finish s c _)
  | bodyEnds c error =>
    simp only [step, Option.ite_none_right_eq_some, Option.some.injEq] at next
    obtain ⟨phase, rfl⟩ := next
    apply Move.idle
    apply passive_phase s c
    all_goals simp [phase, Phase.awaited, Phase.isOver]
  | resume c =>
    simp only [step, Option.ite_none_right_eq_some] at next
    exact resume_move s t next.1 c next.2
  | interrupt c error =>
    simp only [step, Option.ite_none_right_eq_some, Option.some.injEq] at next
    obtain ⟨⟨alone, phase⟩, rfl⟩ := next
    exact close_move s alone c (by simp [phase, Phase.awaited]) _

end SubStreams
