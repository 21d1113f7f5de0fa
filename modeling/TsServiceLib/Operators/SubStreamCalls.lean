import TsServiceLib.Operators.SubStreamMoves

/-!
Which call a delivery belongs to, and what becomes of it. Wherever a call and an
emission occur together, the emission was made under a context whose innermost
invocation is that call; and an emission starts a callback unless its call is
closed, or waits for one.
-/
namespace SubStreams
open Function Transitions LocalValues EventLogs
variable {V : Type}

/-- The emission was made under a context whose binding leads to the call. -/
def Known (s : State V) (c e : Nat) : Prop :=
  ∃ emission, s.emissions[e]? = some emission ∧ emission.context.localValue .call = some c ∧
    issued s.callers emission.context = true

/-- The call and the emission occur together somewhere in the state. -/
def Mentions (s : State V) (c e : Nat) : Prop :=
  .started c e ∈ s.log ∨ (∃ k, (k, .wake c e) ∈ s.reactions) ∨ .wake c e ∈ s.jobs ∨ .callback c e ∈ s.stack ∨
    ∃ k < s.callbacks, (s.callback k).call = c ∧ (s.callback k).emission = e

def Named (s : State V) : Prop := ∀ c e, Mentions s c e → Known s c e

/-- Calls and emissions are never taken back. -/
structure Grows (s t : State V) : Prop where
  callers : ∀ c caller, s.callers c = some caller → t.callers c = some caller
  emissions : ∃ more, t.emissions = s.emissions ++ more

theorem known_mono {s t : State V} (grows : Grows s t) {c e : Nat} (known : Known s c e) : Known t c e := by
  obtain ⟨emission, found, target, genuine⟩ := known
  obtain ⟨more, split⟩ := grows.emissions
  refine ⟨emission, ?_, target, issued_mono grows.callers genuine⟩
  have inside := (List.getElem?_eq_some_iff.mp found).1
  rw [split, List.getElem?_append_left inside]
  exact found

theorem grows_of_eq {s t : State V} (calls : t.calls = s.calls) (caller : ∀ c, (t.call c).caller = (s.call c).caller)
    (emissions : t.emissions = s.emissions) : Grows s t where
  callers c owner made := by
    simp only [State.callers, calls, caller c] at made ⊢
    exact made
  emissions := ⟨[], by rw [emissions, List.append_nil]⟩

theorem passive_grows {s t : State V} (passive : Passive s t) : Grows s t :=
  grows_of_eq passive.calls passive.caller passive.emissions

theorem Grows.trans {s t u : State V} (first : Grows s t) (second : Grows t u) : Grows s u where
  callers c caller made := second.callers c caller (first.callers c caller made)
  emissions := by
    obtain ⟨more, split⟩ := first.emissions
    obtain ⟨more', split'⟩ := second.emissions
    exact ⟨more ++ more', by rw [split', split, List.append_assoc]⟩

theorem delivered_grows {s t : State V} {c e : Nat} (result : Delivered s c e t) : Grows s t := by
  cases result with
  | dropped passive closed => exact passive_grows passive
  | waits active result =>
    rw [result]
    exact grows_of_eq rfl (fun _ => rfl) rfl
  | starts still free uncancelled result =>
    rw [result]
    exact grows_of_eq rfl (fun _ => rfl) rfl

/-- A call made at the end of the calls leaves those before it alone. -/
theorem made_grows (s : State V) (call : SubStreamCall) (log : List Event) :
    Grows s { s.setCall s.calls call with calls := s.calls + 1, log := log } where
  callers c caller made := by
    simp only [State.callers, State.setCall] at made ⊢
    by_cases earlier : c < s.calls
    · rw [if_pos earlier] at made
      rw [if_pos (by omega), update_of_ne (by omega)]
      exact made
    · rw [if_neg earlier] at made
      cases made
  emissions := ⟨[], (List.append_nil _).symm⟩

theorem caller_update (s : State V) (c : Nat) {call : SubStreamCall} (same : call.caller = (s.call c).caller) (c' : Nat) :
    (update s.call c call c').caller = (s.call c').caller := by
  by_cases here : c' = c
  · rw [here, update_self, same]
  · rw [update_of_ne here]

theorem move_grows {s t : State V} {a : Action V} (move : Move s a t) : Grows s t := by
  cases move with
  | idle passive => exact passive_grows passive
  | post result | watch _ _ result | foreign _ _ result | leave _ result | relay _ _ result | adopt _ _ result
  | settle _ _ result =>
    rw [result]
    exact grows_of_eq rfl (fun _ => rfl) rfl
  | emit action running genuine notes result =>
    rename_i context v noted
    have noting : Grows s noted := by
      rw [notes]
      exact ⟨fun _ _ made => made, _, rfl⟩
    cases target : context.localValue .call with
    | some c =>
      rw [target] at result
      exact noting.trans (delivered_grows result)
    | none =>
      rw [target] at result
      rw [result]
      exact noting
  | wake _ _ result =>
    have grows := delivered_grows result
    exact ⟨grows.callers, grows.emissions⟩
  | made _ result =>
    rw [result]
    exact made_grows s _ s.log
  | refused _ result =>
    rw [result]
    exact made_grows s _ _
  | promises _ result | clear _ _ result =>
    rw [result]
    exact grows_of_eq rfl (caller_update s _ rfl) rfl
  | ends _ passive | settles _ _ passive | react _ _ passive =>
    have grows := passive_grows passive
    exact ⟨grows.callers, grows.emissions⟩
  | closes _ _ passive _ result =>
    rw [result]
    exact (passive_grows passive).trans (grows_of_eq rfl (caller_update _ _ rfl) rfl)
  | returns _ _ result =>
    rw [result]
    exact grows_of_eq rfl (caller_update s _ rfl) rfl

theorem passive_mentions {s t : State V} (passive : Passive s t) {c e : Nat} (mention : Mentions t c e) :
    Mentions s c e := by
  obtain ⟨news, split, quiet, _, _⟩ := passive.log
  simp only [Mentions, split, List.mem_append, passive.reactions, passive.jobs, passive.stack, passive.callbacks,
    passive.callback] at mention
  rcases mention with started | rest
  · exact .inl (started.resolve_left (quiet c e))
  · exact .inr rest

theorem delivered_mentions {s t : State V} {c e c' e' : Nat} (result : Delivered s c e t) (mention : Mentions t c' e') :
    Mentions s c' e' ∨ (c' = c ∧ e' = e) := by
  cases result with
  | dropped passive closed => exact .inl (passive_mentions passive mention)
  | waits active result =>
    subst result
    simp only [Mentions, List.mem_append, List.mem_singleton, Prod.mk.injEq, Job.wake.injEq] at mention
    rcases mention with started | ⟨k, old | new⟩ | rest
    · exact .inl (.inl started)
    · exact .inl (.inr (.inl ⟨k, old⟩))
    · exact .inr new.2
    · exact .inl (.inr (.inr rest))
  | starts still free uncancelled result =>
    subst result
    simp only [Mentions, State.enter, List.mem_cons, Event.started.injEq, Frame.callback.injEq] at mention
    rcases mention with (new | old) | reaction | job | (new | old) | callback
    · exact .inr new
    · exact .inl (.inl old)
    · exact .inl (.inr (.inl reaction))
    · exact .inl (.inr (.inr (.inl job)))
    · exact .inr new
    · exact .inl (.inr (.inr (.inr (.inl old))))
    · exact .inl (.inr (.inr (.inr (.inr callback))))

/-- The deliveries that a settled promise wakes were waiting for it. -/
theorem woken_waited {s : State V} {k c e : Nat} {fulfilled : Bool}
    (woken : .wake c e ∈ ((s.reactions.filter fun r => r.1 = k).map Prod.snd).filter (State.passes fulfilled)) :
    fulfilled = true ∧ (k, .wake c e) ∈ s.reactions := by
  rw [List.mem_filter] at woken
  obtain ⟨mem, passed⟩ := woken
  obtain ⟨r, waiting, job⟩ := List.mem_map.mp mem
  rw [List.mem_filter, decide_eq_true_eq] at waiting
  obtain ⟨mem, same⟩ := waiting
  rw [← same, ← job]
  exact ⟨passed, mem⟩

theorem stageOf_mentions {s : State V} {k k' c e : Nat} {stage : Stage}
    (here : ((s.stageOf k stage).callback k').call = c ∧ ((s.stageOf k stage).callback k').emission = e) :
    (s.callback k').call = c ∧ (s.callback k').emission = e := by
  simp only [State.stageOf] at here
  by_cases same : k' = k
  · rw [same] at here ⊢
    rwa [update_self] at here
  · rwa [update_of_ne same] at here

theorem move_mentions {s t : State V} {a : Action V} (move : Move s a t) {c e : Nat} (mention : Mentions t c e) :
    Mentions s c e ∨ Known t c e := by
  cases move with
  | idle passive => exact .inl (passive_mentions passive mention)
  | post result =>
    subst result
    simpa [Mentions, State.queue] using Or.inl mention
  | watch _ _ result =>
    subst result
    simpa [Mentions] using Or.inl mention
  | foreign _ head result =>
    subst result
    left
    simp only [Mentions, List.mem_singleton, reduceCtorEq, false_or] at mention
    rcases mention with started | reaction | job | callback
    · exact .inl started
    · exact .inr (.inl reaction)
    · exact .inr (.inr (.inl (by rw [head]; exact List.mem_cons_of_mem _ job)))
    · exact .inr (.inr (.inr (.inr callback)))
  | leave top result =>
    subst result
    left
    rcases mention with started | reaction | job | frame | callback
    · exact .inl started
    · exact .inr (.inl reaction)
    · exact .inr (.inr (.inl job))
    · exact .inr (.inr (.inr (.inl (by rw [top]; exact List.mem_cons_of_mem _ frame))))
    · exact .inr (.inr (.inr (.inr callback)))
  | emit action running genuine notes result =>
    rename_i context v noted
    have same : ∀ c e, Mentions noted c e → Mentions s c e := by
      intro c e mention
      rw [notes] at mention
      simpa [Mentions, State.enter] using mention
    cases target : context.localValue .call with
    | none =>
      rw [target] at result
      rw [result] at mention
      exact .inl (same c e mention)
    | some c' =>
      rw [target] at result
      rcases delivered_mentions result mention with old | ⟨rfl, rfl⟩
      · exact .inl (same c e old)
      · right
        apply known_mono (delivered_grows result)
        rw [notes]
        exact ⟨⟨context, v⟩, by simp, target, genuine⟩
  | wake alone head result =>
    rename_i c' e' rest
    have tail : ∀ c e, Mentions { s with jobs := rest } c e → Mentions s c e := by
      rintro c e (started | reaction | job | others)
      · exact .inl started
      · exact .inr (.inl reaction)
      · exact .inr (.inr (.inl (by rw [head]; exact List.mem_cons_of_mem _ job)))
      · exact .inr (.inr (.inr others))
    left
    rcases delivered_mentions result mention with old | ⟨rfl, rfl⟩
    · exact tail c e old
    · exact .inr (.inr (.inl (by rw [head]; exact List.mem_cons_self)))
  | made _ result =>
    subst result
    exact .inl mention
  | refused _ result =>
    subst result
    simpa [Mentions, State.enter, State.setCall] using Or.inl mention
  | ends top passive =>
    left
    rcases passive_mentions passive mention with started | reaction | job | frame | callback
    · exact .inl started
    · exact .inr (.inl reaction)
    · exact .inr (.inr (.inl job))
    · exact .inr (.inr (.inr (.inl (by rw [top]; exact List.mem_cons_of_mem _ frame))))
    · exact .inr (.inr (.inr (.inr callback)))
  | promises top result =>
    subst result
    left
    rcases mention with started | reaction | job | frame | ⟨k, made, here⟩
    · exact .inl started
    · exact .inr (.inl reaction)
    · exact .inr (.inr (.inl job))
    · exact .inr (.inr (.inr (.inl (by rw [top]; exact List.mem_cons_of_mem _ frame))))
    · by_cases new : k = s.callbacks
      · simp only [new, update_self] at here
        obtain ⟨rfl, rfl⟩ := here
        exact .inr (.inr (.inr (.inl (by rw [top]; exact List.mem_cons_self))))
      · simp only [update_of_ne new] at here
        exact .inr (.inr (.inr (.inr ⟨k, by simp only at made; omega, here⟩)))
  | settles made pending passive =>
    left
    rcases passive_mentions passive mention with started | reaction | job | frame | ⟨k', earlier, here⟩
    · exact .inl started
    · exact .inr (.inl reaction)
    · exact .inr (.inr (.inl (by simpa [State.queue, State.stageOf] using job)))
    · exact .inr (.inr (.inr (.inl frame)))
    · exact .inr (.inr (.inr (.inr ⟨k', earlier, stageOf_mentions here⟩)))
  | react _ head passive =>
    left
    rcases passive_mentions passive mention with started | reaction | job | others
    · exact .inl started
    · exact .inr (.inl reaction)
    · simp only [List.mem_append, List.mem_singleton, reduceCtorEq, or_false] at job
      exact .inr (.inr (.inl (by rw [head]; exact List.mem_cons_of_mem _ job)))
    · exact .inr (.inr (.inr others))
  | clear _ head result | adopt _ head result | relay _ head result =>
    subst result
    left
    rcases mention with started | reaction | job | others
    · exact .inl started
    · exact .inr (.inl reaction)
    · simp only [List.mem_append, List.mem_cons, List.not_mem_nil, reduceCtorEq, or_false] at job
      exact .inr (.inr (.inl (by rw [head]; exact List.mem_cons_of_mem _ job)))
    · exact .inr (.inr (.inr others))
  | settle alone head result =>
    rename_i k fulfilled rest
    subst result
    left
    rcases mention with started | ⟨k', reaction⟩ | job | frame | ⟨k', earlier, here⟩
    · exact .inl started
    · exact .inr (.inl ⟨k', List.mem_of_mem_filter reaction⟩)
    · rcases List.mem_append.mp job with job | woken
      · exact .inr (.inr (.inl (by rw [head]; exact List.mem_cons_of_mem _ job)))
      · exact .inr (.inl ⟨k, (woken_waited woken).2⟩)
    · exact .inr (.inr (.inr (.inl frame)))
    · exact .inr (.inr (.inr (.inr ⟨k', earlier, stageOf_mentions here⟩)))
  | closes _ _ passive _ result =>
    rw [result] at mention
    exact .inl (passive_mentions passive mention)
  | returns _ _ result =>
    subst result
    simpa [Mentions, State.enter, State.setCall] using Or.inl mention

theorem move_named {s t : State V} {a : Action V} (named : Named s) (move : Move s a t) : Named t := by
  intro c e mention
  rcases move_mentions move mention with old | known
  · exact known_mono (move_grows move) (named c e old)
  · exact known

theorem known_made {s : State V} {c e : Nat} (known : Known s c e) : c < s.calls := by
  obtain ⟨emission, _, target, genuine⟩ := known
  obtain ⟨caller, made, _⟩ := innermost_of_localValue genuine target
  simp only [State.callers] at made
  split at made
  · assumption
  · cases made

end SubStreams
