import TsServiceLib.Operators.CallbackChain

/-!
Where an emission goes and what becomes of it, on every run of a SubStream. It
goes to the call of its innermost invocation and to no other; it starts a
callback there, waits for one, or finds the call closed. No callback starts
after the call was closed or its context was cancelled.
-/
namespace SubStreams
open Function Transitions LocalValues EventLogs
variable {V : Type}

theorem held_of_eq {s t : State V} (held : Held s) (caller : ∀ c, (t.call c).caller = (s.call c).caller)
    (same : ∀ c, (t.call c).closed = false → (s.call c).closed = false ∧
      (t.call c).context = (s.call c).context ∧ (t.call c).collector = (s.call c).collector) : Held t := by
  intro c still
  obtain ⟨still', context, collector⟩ := same c still
  rw [context, collector, caller c]
  exact held c still'

theorem passive_held {s t : State V} (held : Held s) (passive : Passive s t) : Held t := by
  apply held_of_eq held passive.caller
  intro c still
  refine ⟨?_, passive.held c still⟩
  by_contra shut
  rw [passive.closed c (by simpa using shut)] at still
  cases still

theorem held_update {s t : State V} (held : Held s) {c : Nat} {call : SubStreamCall}
    (result : t.call = update s.call c call)
    (own : call.closed = false → call.context = some call.caller ∧ call.collector = true) : Held t := by
  intro c' still
  rw [result] at still ⊢
  by_cases same : c' = c
  · rw [same, update_self] at still ⊢
    exact own still
  · rw [update_of_ne same] at still ⊢
    exact held c' still

theorem delivered_held {s t : State V} (held : Held s) {c e : Nat} (result : Delivered s c e t) : Held t := by
  cases result with
  | dropped passive closed => exact passive_held held passive
  | waits active result | starts still free uncancelled result =>
    rw [result]
    exact held

theorem move_held {s t : State V} {a : Action V} (held : Held s) (move : Move s a t) : Held t := by
  cases move with
  | idle passive => exact passive_held held passive
  | post result | watch _ _ result | foreign _ _ result | leave _ result | relay _ _ result | adopt _ _ result
  | settle _ _ result =>
    rw [result]
    exact held
  | emit action running genuine notes result =>
    rename_i context v noted
    have noting : Held noted := by
      rw [notes]
      exact held
    cases target : context.localValue .call with
    | some c =>
      rw [target] at result
      exact delivered_held noting result
    | none =>
      rw [target] at result
      rwa [result]
  | wake alone head result =>
    rename_i c e rest
    have tail : Held { s with jobs := rest } := held
    exact delivered_held tail result
  | made _ result =>
    rw [result]
    exact held_update held rfl (fun _ => ⟨rfl, rfl⟩)
  | refused _ result =>
    rw [result]
    exact held_update held rfl nofun
  | ends top passive =>
    rename_i c e below
    have popped : Held { s with stack := below } := held
    exact passive_held popped passive
  | settles made pending passive =>
    rename_i k outcome
    have queued : Held ((s.stageOf k .settling).queue [.react k outcome]) := held
    exact passive_held queued passive
  | react alone head passive failed =>
    rename_i k outcome fulfilled rest
    have onward : Held { s with jobs := rest ++ [.clear k fulfilled] } := held
    exact passive_held onward passive
  | promises _ result | clear _ _ result =>
    rw [result]
    exact held_update held rfl (held _)
  | closes _ _ passive _ result =>
    rw [result]
    exact held_update (passive_held held passive) rfl (passive_held held passive _)
  | returns _ _ result =>
    rw [result]
    exact held_update held rfl (held _)

/-- The delivery waits for a promise, or has been woken and waits for its turn. -/
def Waits (s : State V) (c e : Nat) : Prop := (∃ k, (k, .wake c e) ∈ s.reactions) ∨ .wake c e ∈ s.jobs

/-- The emission has reached the collector, has found the call closed, or waits. -/
def Answered (s : State V) (c e : Nat) : Prop :=
  .started c e ∈ s.log ∨ (s.call c).closed = true ∨ Waits s c e

/-- Every emission under a context that leads to a call is answered. -/
structure Kept (s : State V) : Prop where
  genuine : ∀ (e : Nat) (emission : Emission V), s.emissions[e]? = some emission →
    issued s.callers emission.context = true
  answered : ∀ c e, Known s c e → Answered s c e

theorem passive_answered {s t : State V} (passive : Passive s t) {c e : Nat} (answered : Answered s c e) :
    Answered t c e := by
  obtain ⟨news, split, _⟩ := passive.log
  rcases answered with started | closed | waits
  · exact .inl (by rw [split]; exact List.mem_append_right _ started)
  · exact .inr (.inl (passive.closed c closed))
  · exact .inr (.inr (by rwa [Waits, passive.reactions, passive.jobs]))

theorem delivered_answered {s t : State V} {c e : Nat} (result : Delivered s c e t) :
    Answered t c e ∧ ∀ c' e', Answered s c' e' → Answered t c' e' := by
  cases result with
  | dropped passive closed => exact ⟨.inr (.inl closed), fun c' e' => passive_answered passive⟩
  | waits active result =>
    rename_i k
    subst result
    refine ⟨.inr (.inr (.inl ⟨k, by simp⟩)), ?_⟩
    rintro c' e' (started | closed | ⟨k, waits⟩ | woken)
    · exact .inl started
    · exact .inr (.inl closed)
    · exact .inr (.inr (.inl ⟨k, List.mem_append_left _ waits⟩))
    · exact .inr (.inr (.inr woken))
  | starts still free uncancelled result =>
    subst result
    refine ⟨.inl List.mem_cons_self, ?_⟩
    rintro c' e' (started | others)
    · exact .inl (List.mem_cons_of_mem _ started)
    · exact .inr others

theorem answered_of_eq {s t : State V} {c e : Nat} (answered : Answered s c e)
    (log : ∀ c e, .started c e ∈ s.log → .started c e ∈ t.log)
    (closed : ∀ c, (s.call c).closed = true → (t.call c).closed = true) (reactions : ∀ r ∈ s.reactions, r ∈ t.reactions)
    (jobs : ∀ c e, .wake c e ∈ s.jobs → .wake c e ∈ t.jobs) : Answered t c e := by
  rcases answered with started | shut | ⟨k, waits⟩ | woken
  · exact .inl (log c e started)
  · exact .inr (.inl (closed c shut))
  · exact .inr (.inr (.inl ⟨k, reactions _ waits⟩))
  · exact .inr (.inr (.inr (jobs c e woken)))

theorem settle_answered {s : State V} (chained : Chained s) {k : Nat} {fulfilled : Bool} {rest : List Job}
    (head : s.jobs = .settle k fulfilled :: rest) {c e : Nat} (answered : Answered s c e) :
    Answered { s.stageOf k .settled with
               jobs := rest ++ ((s.reactions.filter fun r => r.1 = k).map Prod.snd).filter (State.passes fulfilled)
               reactions := s.reactions.filter fun r => r.1 ≠ k } c e := by
  rcases answered with started | closed | ⟨k', waits⟩ | woken
  · exact .inl started
  · exact .inr (.inl closed)
  · by_cases same : k' = k
    · subst same
      cases fulfilled with
      | true =>
        refine .inr (.inr (.inr ?_))
        rw [List.mem_append, List.mem_filter, List.mem_map]
        exact .inr ⟨⟨_, List.mem_filter.mpr ⟨waits, by simp⟩, rfl⟩, rfl⟩
      | false =>
        have shut := chained.rejected _ (head ▸ List.mem_cons_self) k' (by simp [rejects])
        rw [chained.own k' c e waits] at shut
        exact .inr (.inl shut)
    · exact .inr (.inr (.inl ⟨k', List.mem_filter.mpr ⟨waits, by simpa using same⟩⟩))
  · rw [head] at woken
    rcases List.mem_cons.mp woken with same | woken
    · cases same
    · exact .inr (.inr (.inr (List.mem_append_left _ woken)))

theorem made_answered (s : State V) (call : SubStreamCall) (log : List Event) {c e : Nat} (made : c < s.calls)
    (answered : Answered s c e) (older : ∀ c e, .started c e ∈ s.log → .started c e ∈ log) :
    Answered { s.setCall s.calls call with calls := s.calls + 1, log := log } c e := by
  rcases answered with started | closed | waits
  · exact .inl (older c e started)
  · right
    left
    simp only [State.setCall, update_of_ne (Nat.ne_of_lt made)]
    exact closed
  · exact .inr (.inr waits)

theorem closed_update {s : State V} {c : Nat} {call : SubStreamCall}
    (same : (s.call c).closed = true → call.closed = true) (c' : Nat) (closed : (s.call c').closed = true) :
    (update s.call c call c').closed = true := by
  by_cases here : c' = c
  · rw [here] at closed ⊢
    rw [update_self]
    exact same closed
  · rwa [update_of_ne here]

theorem wake_of_tail {s : State V} {job : Job} {rest : List Job} (head : s.jobs = job :: rest)
    (plain : ∀ c e, job ≠ .wake c e) (c e : Nat) (woken : .wake c e ∈ s.jobs) : .wake c e ∈ rest := by
  rw [head] at woken
  rcases List.mem_cons.mp woken with same | woken
  · exact absurd same.symm (plain c e)
  · exact woken

theorem move_answered {s t : State V} {a : Action V} (chained : Chained s) (move : Move s a t) {c e : Nat} (known : Known s c e)
    (answered : Answered s c e) : Answered t c e := by
  cases move with
  | idle passive => exact passive_answered passive answered
  | post result =>
    subst result
    exact answered_of_eq answered (fun _ _ => id) (fun _ => id) (fun _ => id) (fun _ _ => List.mem_append_left _)
  | watch _ _ result =>
    subst result
    exact answered_of_eq answered (fun _ _ => id) (fun _ => id) (fun _ => List.mem_append_left _) (fun _ _ => id)
  | foreign _ head result =>
    subst result
    exact answered_of_eq answered (fun _ _ => id) (fun _ => id) (fun _ => id) (wake_of_tail head nofun)
  | leave _ result =>
    subst result
    exact answered
  | emit action running genuine notes result =>
    rename_i context v noted
    have noting : Answered noted c e := by
      rw [notes]
      exact answered_of_eq answered (fun _ _ => List.mem_cons_of_mem _) (fun _ => id) (fun _ => id) (fun _ _ => id)
    cases target : context.localValue .call with
    | some c' =>
      rw [target] at result
      exact (delivered_answered result).2 c e noting
    | none =>
      rw [target] at result
      rwa [result]
  | wake alone head result =>
    rename_i c' e' rest
    by_cases same : c = c' ∧ e = e'
    · obtain ⟨rfl, rfl⟩ := same
      exact (delivered_answered result).1
    · apply (delivered_answered result).2
      rcases answered with started | closed | waits | woken
      · exact .inl started
      · exact .inr (.inl closed)
      · exact .inr (.inr (.inl waits))
      · rw [head] at woken
        rcases List.mem_cons.mp woken with here | woken
        · simp only [Job.wake.injEq] at here
          exact absurd here same
        · exact .inr (.inr (.inr woken))
  | made _ result =>
    subst result
    exact made_answered s _ s.log (known_made known) answered (fun _ _ => id)
  | refused _ result =>
    subst result
    exact made_answered s _ _ (known_made known) answered (fun _ _ => List.mem_cons_of_mem _)
  | ends top passive =>
    apply passive_answered passive
    exact answered
  | promises _ result =>
    subst result
    exact answered_of_eq answered (fun _ _ => id) (closed_update id) (fun _ => id) (fun _ _ => id)
  | settles made pending passive =>
    apply passive_answered passive
    exact answered_of_eq answered (fun _ _ => id) (fun _ => id) (fun _ => id) (fun _ _ => List.mem_append_left _)
  | react alone head passive failed =>
    apply passive_answered passive
    exact answered_of_eq answered (fun _ _ => id) (fun _ => id) (fun _ => id)
      (fun c e woken => List.mem_append_left _ (wake_of_tail head nofun c e woken))
  | clear _ head result =>
    subst result
    exact answered_of_eq answered (fun _ _ => id) (closed_update id) (fun _ => id)
      (fun c e woken => List.mem_append_left _ (wake_of_tail head nofun c e woken))
  | relay _ head result =>
    subst result
    exact answered_of_eq answered (fun _ _ => id) (fun _ => id) (fun _ => id) (wake_of_tail head nofun)
  | adopt _ head result =>
    subst result
    exact answered_of_eq answered (fun _ _ => id) (fun _ => id) (fun _ => id)
      (fun c e woken => List.mem_append_left _ (wake_of_tail head nofun c e woken))
  | settle _ head result =>
    subst result
    exact settle_answered chained head answered
  | closes _ _ passive _ result =>
    subst result
    exact answered_of_eq (passive_answered passive answered) (fun _ _ => id) (closed_update id) (fun _ => id) (fun _ _ => id)
     
  | returns _ _ result =>
    subst result
    exact answered_of_eq answered (fun _ _ => List.mem_cons_of_mem _) (closed_update id) (fun _ => id) (fun _ _ => id)

theorem delivered_emissions {s t : State V} {c e : Nat} (result : Delivered s c e t) : t.emissions = s.emissions := by
  cases result with
  | dropped passive _ => exact passive.emissions
  | waits _ result | starts _ _ _ result =>
    subst result
    rfl

theorem move_emissions {s t : State V} {a : Action V} (move : Move s a t) : t.emissions = s.emissions ∨
    ∃ emission, t.emissions = s.emissions ++ [emission] ∧ issued s.callers emission.context = true ∧
      ∀ c, emission.context.localValue .call = some c → Answered t c s.emissions.length := by
  cases move with
  | idle passive | ends _ passive | settles _ _ passive | react _ _ passive => exact .inl passive.emissions
  | post result | watch _ _ result | foreign _ _ result | leave _ result | made _ result | refused _ result
  | promises _ result | clear _ _ result | relay _ _ result | adopt _ _ result | settle _ _ result
  | returns _ _ result =>
    subst result
    exact .inl rfl
  | wake _ _ result =>
    have same := delivered_emissions result
    exact .inl same
  | closes _ _ passive _ result =>
    subst result
    exact .inl passive.emissions
  | emit action running genuine notes result =>
    rename_i context v noted
    right
    refine ⟨⟨context, v⟩, ?_, genuine, ?_⟩
    · cases target : context.localValue .call with
      | some c =>
        rw [target] at result
        rw [delivered_emissions result, notes]
      | none =>
        rw [target] at result
        rw [result, notes]
    · intro c target
      rw [target] at result
      exact (delivered_answered result).1

theorem move_kept {s t : State V} {a : Action V} (chained : Chained s) (kept : Kept s) (move : Move s a t) : Kept t := by
  have grows := move_grows move
  rcases move_emissions move with same | ⟨added, grown, genuine, answers⟩
  · constructor
    · intro e emission found
      rw [same] at found
      exact issued_mono grows.callers (kept.genuine e emission found)
    · intro c e known
      obtain ⟨emission, found, target, _⟩ := known
      rw [same] at found
      have known : Known s c e := ⟨emission, found, target, kept.genuine e emission found⟩
      exact move_answered chained move known (kept.answered c e known)
  · have older : ∀ e emission, t.emissions[e]? = some emission →
        s.emissions[e]? = some emission ∨ (e = s.emissions.length ∧ emission = added) := by
      intro e emission found
      rw [grown] at found
      by_cases inside : e < s.emissions.length
      · rw [List.getElem?_append_left inside] at found
        exact .inl found
      · rw [List.getElem?_append_right (by omega), List.getElem?_singleton] at found
        split at found
        · cases found
          exact .inr ⟨by omega, rfl⟩
        · cases found
    constructor
    · intro e emission found
      rcases older e emission found with old | ⟨_, rfl⟩
      · exact issued_mono grows.callers (kept.genuine e emission old)
      · exact issued_mono grows.callers genuine
    · intro c e known
      obtain ⟨emission, found, target, _⟩ := known
      rcases older e emission found with old | ⟨rfl, rfl⟩
      · have known : Known s c e := ⟨emission, old, target, kept.genuine e emission old⟩
        exact move_answered chained move known (kept.answered c e known)
      · exact answers c target

/-- What stands in the log is so, and no start stands behind the closing of its
    call or the cancellation of its caller. -/
structure Recorded (s : State V) : Prop where
  unmade : ∀ c, s.calls ≤ c → (s.call c).closed = true
  closed : ∀ c, .closed c ∈ s.log → c < s.calls ∧ (s.call c).closed = true
  off : ∀ scope, .cancelled scope ∈ s.log → s.off scope = true
  after : Each (fun event before => ∀ c e, event = .started c e →
    .closed c ∉ before ∧ .cancelled (s.call c).caller.scope ∉ before) s.log

theorem after_of_eq {s t : State V} {log : List Event} (caller : ∀ c, (t.call c).caller = (s.call c).caller)
    (after : Each (fun event before => ∀ c e, event = .started c e →
      .closed c ∉ before ∧ .cancelled (s.call c).caller.scope ∉ before) log) :
    Each (fun event before => ∀ c e, event = .started c e →
      .closed c ∉ before ∧ .cancelled (t.call c).caller.scope ∉ before) log := by
  intro newer event before split c e started
  rw [caller c]
  exact after newer event before split c e started

theorem passive_recorded {s t : State V} (recorded : Recorded s) (passive : Passive s t) : Recorded t := by
  obtain ⟨news, split, quiet, shut, offs⟩ := passive.log
  constructor
  · intro c beyond
    rw [passive.calls] at beyond
    exact passive.closed c (recorded.unmade c beyond)
  · intro c mem
    rw [split] at mem
    rw [passive.calls]
    rcases List.mem_append.mp mem with mem | mem
    · obtain ⟨still, closed⟩ := shut c mem
      refine ⟨?_, closed⟩
      by_contra beyond
      rw [recorded.unmade c (by omega)] at still
      cases still
    · obtain ⟨made, closed⟩ := recorded.closed c mem
      exact ⟨made, passive.closed c closed⟩
  · intro scope mem
    rw [split] at mem
    rcases List.mem_append.mp mem with mem | mem
    · exact offs scope mem
    · exact passive.off scope (recorded.off scope mem)
  · rw [split]
    apply each_append
    · intro event mem before c e started
      rw [started] at mem
      exact absurd mem (quiet c e)
    · exact after_of_eq passive.caller recorded.after

theorem recorded_of_eq {s t : State V} (recorded : Recorded s) (calls : t.calls = s.calls) (log : t.log = s.log)
    (off : ∀ scope, s.off scope = true → t.off scope = true) (caller : ∀ c, (t.call c).caller = (s.call c).caller)
    (closed : ∀ c, (s.call c).closed = true → (t.call c).closed = true) : Recorded t where
  unmade c beyond := by
    rw [calls] at beyond
    exact closed c (recorded.unmade c beyond)
  closed c mem := by
    rw [log] at mem
    rw [calls]
    exact ⟨(recorded.closed c mem).1, closed c (recorded.closed c mem).2⟩
  off scope mem := by
    rw [log] at mem
    exact off scope (recorded.off scope mem)
  after := by
    rw [log]
    exact after_of_eq caller recorded.after

theorem recorded_update {s t : State V} (recorded : Recorded s) {c : Nat} {call : SubStreamCall}
    (result : t.call = update s.call c call) (calls : t.calls = s.calls) (log : t.log = s.log)
    (off : ∀ scope, s.off scope = true → t.off scope = true) (caller : call.caller = (s.call c).caller)
    (closed : (s.call c).closed = true → call.closed = true) : Recorded t := by
  apply recorded_of_eq recorded calls log off
  · rw [result]
    exact caller_update s c caller
  · rw [result]
    exact closed_update closed

theorem recorded_enter {s : State V} (recorded : Recorded s) (event : Event) (plain : ∀ c e, event ≠ .started c e)
    (unclosed : ∀ c, event ≠ .closed c) (uncancelled : ∀ scope, event ≠ .cancelled scope) :
    Recorded (s.enter event) := by
  apply passive_recorded recorded
  apply passive_enter s plain unclosed
  intro scope same
  exact absurd same (uncancelled scope)

theorem delivered_recorded {s t : State V} (recorded : Recorded s) {c e : Nat} (result : Delivered s c e t) :
    Recorded t := by
  cases result with
  | dropped passive closed => exact passive_recorded recorded passive
  | waits active result =>
    rw [result]
    exact recorded_of_eq recorded rfl rfl (fun _ => id) (fun _ => rfl) (fun _ => id)
  | starts still free uncancelled result =>
    subst result
    constructor
    · exact recorded.unmade
    · intro c' mem
      exact recorded.closed c' (by simpa [State.enter] using mem)
    · intro scope mem
      exact recorded.off scope (by simpa [State.enter] using mem)
    · apply each_cons
      · intro c' e' started
        simp only [Event.started.injEq] at started
        obtain ⟨rfl, rfl⟩ := started
        constructor
        · intro mem
          rw [(recorded.closed c mem).2] at still
          cases still
        · intro mem
          have off := recorded.off (s.call c).caller.scope mem
          rw [uncancelled] at off
          cases off
      · exact recorded.after

/-- A call that is made was never closed, and none of its callbacks has started. -/
theorem made_recorded {s : State V} (recorded : Recorded s) (named : Named s) (call : SubStreamCall) :
    Recorded { s.setCall s.calls call with calls := s.calls + 1 } := by
  constructor
  · intro c beyond
    simp only [State.setCall] at beyond ⊢
    rw [update_of_ne (by omega)]
    exact recorded.unmade c (by omega)
  · intro c mem
    obtain ⟨made, closed⟩ := recorded.closed c mem
    simp only [State.setCall, update_of_ne (Nat.ne_of_lt made)]
    exact ⟨by omega, closed⟩
  · exact recorded.off
  · intro newer event before split c e started
    have mem : .started c e ∈ s.log := by
      have whole : s.log = newer ++ event :: before := split
      rw [whole, started]
      exact List.mem_append_right _ List.mem_cons_self
    have known := named c e (.inl mem)
    simp only [State.setCall, update_of_ne (Nat.ne_of_lt (known_made known))]
    exact recorded.after newer event before split c e started

theorem refused_recorded {s : State V} (recorded : Recorded s) (shut : (s.call c).closed = true) (made : c < s.calls) :
    Recorded (s.enter (.closed c)) := by
  constructor
  · exact recorded.unmade
  · intro c' mem
    rcases List.mem_cons.mp mem with same | mem
    · cases same
      exact ⟨made, shut⟩
    · exact recorded.closed c' mem
  · intro scope mem
    exact recorded.off scope (by simpa [State.enter] using mem)
  · exact each_cons (by simp) recorded.after

theorem move_recorded {s t : State V} {a : Action V} (named : Named s) (recorded : Recorded s) (move : Move s a t) : Recorded t := by
  cases move with
  | idle passive => exact passive_recorded recorded passive
  | post result | watch _ _ result | foreign _ _ result | leave _ result | relay _ _ result | adopt _ _ result
  | settle _ _ result =>
    rw [result]
    exact recorded_of_eq recorded rfl rfl (fun _ => id) (fun _ => rfl) (fun _ => id)
  | emit action running genuine notes result =>
    rename_i context v noted
    have noting : Recorded noted := by
      rw [notes]
      have entered := recorded_enter recorded (.emitted s.emissions.length) (by simp) (by simp) (by simp)
      exact recorded_of_eq entered rfl rfl (fun _ => id) (fun _ => rfl) (fun _ => id)
    cases target : context.localValue .call with
    | some c =>
      rw [target] at result
      exact delivered_recorded noting result
    | none =>
      rw [target] at result
      rwa [result]
  | wake alone head result =>
    rename_i c e rest
    have tail : Recorded { s with jobs := rest } :=
      recorded_of_eq recorded rfl rfl (fun _ => id) (fun _ => rfl) (fun _ => id)
    exact delivered_recorded tail result
  | made _ result =>
    rw [result]
    exact made_recorded recorded named _
  | refused _ result =>
    rename_i caller genuine
    rw [result]
    have made := made_recorded recorded named {
      caller := caller
      context := none
      collector := false
      active := none
      closed := true
      failure := some .cancelled
      phase := .closing none (some .cancelled) }
    apply refused_recorded made
    · simp [State.setCall]
    · exact Nat.lt_succ_self _
  | ends top passive =>
    rename_i c e below
    have popped : Recorded { s with stack := below } :=
      recorded_of_eq recorded rfl rfl (fun _ => id) (fun _ => rfl) (fun _ => id)
    exact passive_recorded popped passive
  | settles made pending passive =>
    rename_i k outcome
    have queued : Recorded ((s.stageOf k .settling).queue [.react k outcome]) :=
      recorded_of_eq recorded rfl rfl (fun _ => id) (fun _ => rfl) (fun _ => id)
    exact passive_recorded queued passive
  | react alone head passive failed =>
    rename_i k outcome fulfilled rest
    have onward : Recorded { s with jobs := rest ++ [.clear k fulfilled] } :=
      recorded_of_eq recorded rfl rfl (fun _ => id) (fun _ => rfl) (fun _ => id)
    exact passive_recorded onward passive
  | promises _ result | clear _ _ result =>
    rw [result]
    exact recorded_update recorded rfl rfl rfl (fun _ => id) rfl id
  | closes _ _ passive _ result =>
    rw [result]
    exact recorded_update (passive_recorded recorded passive) rfl rfl rfl (fun _ => id) rfl id
  | returns _ _ result =>
    rename_i c awaited outcome before settled
    rw [result]
    have moved : Recorded (s.setCall c { s.call c with phase := .returned awaited outcome }) :=
      recorded_update recorded rfl rfl rfl (fun _ => id) rfl id
    exact recorded_enter moved _ (by simp) (by simp) (by simp)

end SubStreams
