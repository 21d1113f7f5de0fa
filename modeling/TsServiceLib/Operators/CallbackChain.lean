import TsServiceLib.Operators.SubStreamCalls

/-!
The chain of jobs behind the promise of a callback. While the promise settles,
exactly one job of the chain is queued; `#active` holds the promise until the
handler of `finally` has run, and so never once it has settled. What waits for a
promise therefore always waits for one that still settles.
-/
namespace SubStreams
open Function Transitions LocalValues EventLogs
variable {V : Type}

/-- The job belongs to the chain of the callback and queues the next one. -/
def ofCallback (k : Nat) : Job → Bool
  | .react k' _ => k' = k
  | .clear k' _ => k' = k
  | .adopt k' _ => k' = k
  | .settle k' _ => k' = k
  | _ => false

/-- The handler of `finally` is still to run. -/
def early (k : Nat) : Job → Bool
  | .react k' _ => k' = k
  | .clear k' _ => k' = k
  | _ => false

/-- The promise of the callback will be rejected. -/
def rejects (k : Nat) : Job → Bool
  | .clear k' fulfilled => k' = k && !fulfilled
  | .adopt k' fulfilled => k' = k && !fulfilled
  | .settle k' fulfilled => k' = k && !fulfilled
  | _ => false

/-- How many jobs of the chain are queued at this stage. -/
def Stage.queued : Stage → Nat
  | .settling => 1
  | _ => 0

structure Chained (s : State V) : Prop where
  unmade : ∀ k, s.callbacks ≤ k → (s.callback k).stage = .settled
  single : ∀ k, s.jobs.countP (ofCallback k) = (s.callback k).stage.queued
  waits : ∀ k job, (k, job) ∈ s.reactions → (s.callback k).stage ≠ .settled
  plain : ∀ k job, (k, job) ∈ s.reactions → ∀ k', ofCallback k' job = false
  own : ∀ k c e, (k, .wake c e) ∈ s.reactions → (s.callback k).call = c
  active : ∀ c k, (s.call c).active = some k →
    (s.callback k).call = c ∧ ((s.callback k).stage = .pending ∨ ∃ job ∈ s.jobs, early k job = true)
  rejected : ∀ job ∈ s.jobs, ∀ k, rejects k job = true → (s.call (s.callback k).call).closed = true

theorem ofCallback_of_early {k : Nat} {job : Job} (is : early k job = true) : ofCallback k job = true := by
  cases job <;> simp_all [early, ofCallback]

theorem ofCallback_of_rejects {k : Nat} {job : Job} (is : rejects k job = true) : ofCallback k job = true := by
  cases job <;> simp_all [rejects, ofCallback]

theorem settling_of_job {s : State V} (chained : Chained s) {k : Nat} {job : Job} (mem : job ∈ s.jobs)
    (is : ofCallback k job = true) : (s.callback k).stage = .settling := by
  have positive : 0 < s.jobs.countP (ofCallback k) := List.countP_pos_iff.mpr ⟨job, mem, is⟩
  rw [chained.single k] at positive
  cases stage : (s.callback k).stage with
  | settling => rfl
  | pending | settled => simp [stage, Stage.queued] at positive

theorem none_behind {s : State V} (chained : Chained s) {k : Nat} {job : Job} {rest : List Job}
    (head : s.jobs = job :: rest) (is : ofCallback k job = true) : rest.countP (ofCallback k) = 0 := by
  have settling := settling_of_job chained (head ▸ List.mem_cons_self) is
  have one := chained.single k
  rw [head, List.countP_cons_of_pos is, settling, Stage.queued] at one
  omega

/-- Once the handler of `finally` has run, no call holds the promise. -/
theorem inactive_of_late {s : State V} (chained : Chained s) {k : Nat} {job : Job} {rest : List Job}
    (head : s.jobs = job :: rest) (is : ofCallback k job = true) (late : early k job = false) (c : Nat) :
    (s.call c).active ≠ some k := by
  intro active
  rcases (chained.active c k active).2 with pending | ⟨first, mem, first'⟩
  · rw [settling_of_job chained (head ▸ List.mem_cons_self) is] at pending
    cases pending
  · rw [head] at mem
    rcases List.mem_cons.mp mem with rfl | mem
    · rw [late] at first'
      cases first'
    · have none := none_behind chained head is
      rw [List.countP_eq_zero] at none
      exact none first mem (ofCallback_of_early first')

theorem active_unsettled {s : State V} (chained : Chained s) {c k : Nat} (active : (s.call c).active = some k) :
    (s.callback k).stage ≠ .settled := by
  rcases (chained.active c k active).2 with pending | ⟨job, mem, is⟩
  · rw [pending]
    exact nofun
  · rw [settling_of_job chained mem (ofCallback_of_early is)]
    exact nofun

theorem active_made {s : State V} (chained : Chained s) {c k : Nat} (active : (s.call c).active = some k) :
    k < s.callbacks := by
  by_contra beyond
  exact active_unsettled chained active (chained.unmade k (by omega))

theorem chained_of_eq {s t : State V} (chained : Chained s) (callbacks : t.callbacks = s.callbacks)
    (callback : t.callback = s.callback) (reactions : t.reactions = s.reactions) (jobs : t.jobs = s.jobs)
    (active : ∀ c, (t.call c).active = (s.call c).active)
    (closed : ∀ c, (s.call c).closed = true → (t.call c).closed = true) : Chained t where
  unmade := by
    rw [callbacks, callback]
    exact chained.unmade
  single := by
    rw [jobs, callback]
    exact chained.single
  waits := by
    rw [reactions, callback]
    exact chained.waits
  plain := by
    rw [reactions]
    exact chained.plain
  own := by
    rw [reactions, callback]
    exact chained.own
  active c k is := by
    rw [callback, jobs]
    exact chained.active c k (active c ▸ is)
  rejected := by
    rw [jobs, callback]
    exact fun job mem k is => closed _ (chained.rejected job mem k is)

theorem passive_chained {s t : State V} (chained : Chained s) (passive : Passive s t) : Chained t :=
  chained_of_eq chained passive.callbacks passive.callback passive.reactions passive.jobs passive.active passive.closed

theorem chained_phase {s : State V} (chained : Chained s) (c : Nat) (phase : Phase) :
    Chained (s.setCall c { s.call c with phase := phase }) := by
  refine ⟨chained.unmade, chained.single, chained.waits, chained.plain, chained.own, ?_, ?_⟩
  · intro c' k active
    simp only [State.setCall] at active
    by_cases same : c' = c
    · rw [same, update_self] at active
      rw [same]
      exact chained.active c k active
    · rw [update_of_ne same] at active
      exact chained.active c' k active
  · intro job mem k is
    have shut := chained.rejected job mem k is
    simp only [State.setCall]
    by_cases same : (s.callback k).call = c
    · rw [same] at shut ⊢
      rwa [update_self]
    · rwa [update_of_ne same]

theorem chained_queue {s : State V} (chained : Chained s) (jobs : List Job) (plain : ∀ job ∈ jobs, ∀ k, ofCallback k job = false) :
    Chained (s.queue jobs) where
  unmade := chained.unmade
  single k := by
    have none : jobs.countP (ofCallback k) = 0 := by
      rw [List.countP_eq_zero]
      intro job mem
      rw [plain job mem k]
      exact Bool.false_ne_true
    simp only [State.queue, List.countP_append, none, Nat.add_zero]
    exact chained.single k
  waits := chained.waits
  plain := chained.plain
  own := chained.own
  active c k is := by
    obtain ⟨call, pending | ⟨job, mem, early⟩⟩ := chained.active c k is
    · exact ⟨call, .inl pending⟩
    · exact ⟨call, .inr ⟨job, List.mem_append_left _ mem, early⟩⟩
  rejected job mem k is := by
    rcases List.mem_append.mp mem with mem | mem
    · exact chained.rejected job mem k is
    · have none := plain job mem k
      rw [ofCallback_of_rejects is] at none
      cases none

theorem chained_pop {s : State V} (chained : Chained s) {job : Job} {rest : List Job} (head : s.jobs = job :: rest)
    (plain : ∀ k, ofCallback k job = false) : Chained { s with jobs := rest } where
  unmade := chained.unmade
  single k := by
    have whole := chained.single k
    rw [head, List.countP_cons_of_neg (by simp [plain k])] at whole
    exact whole
  waits := chained.waits
  plain := chained.plain
  own := chained.own
  active c k is := by
    obtain ⟨call, pending | ⟨first, mem, is⟩⟩ := chained.active c k is
    · exact ⟨call, .inl pending⟩
    · rw [head] at mem
      rcases List.mem_cons.mp mem with rfl | mem
      · have none := plain k
        rw [ofCallback_of_early is] at none
        cases none
      · exact ⟨call, .inr ⟨first, mem, is⟩⟩
  rejected first mem k is := chained.rejected first (head ▸ List.mem_cons_of_mem _ mem) k is

theorem chained_react {s : State V} (chained : Chained s) {k : Nat} {job : Job} (open' : (s.callback k).stage ≠ .settled)
    (plain : ∀ k', ofCallback k' job = false) (own : ∀ c e, job = .wake c e → (s.callback k).call = c) :
    Chained { s with reactions := s.reactions ++ [(k, job)] } where
  unmade := chained.unmade
  single := chained.single
  waits k' job' mem := by
    rcases List.mem_append.mp mem with mem | mem
    · exact chained.waits k' job' mem
    · cases List.mem_singleton.mp mem
      exact open'
  plain k' job' mem := by
    rcases List.mem_append.mp mem with mem | mem
    · exact chained.plain k' job' mem
    · cases List.mem_singleton.mp mem
      exact plain
  own k' c e mem := by
    rcases List.mem_append.mp mem with mem | mem
    · exact chained.own k' c e mem
    · simp only [List.mem_singleton, Prod.mk.injEq] at mem
      rw [mem.1]
      exact own c e mem.2.symm
  active := chained.active
  rejected := chained.rejected

theorem delivered_chained {s t : State V} (chained : Chained s) {c e : Nat} (result : Delivered s c e t) : Chained t := by
  cases result with
  | dropped passive closed => exact passive_chained chained passive
  | waits active result =>
    rw [result]
    apply chained_react chained (active_unsettled chained active) (fun _ => rfl)
    intro c' e' same
    cases same
    exact (chained.active c _ active).1
  | starts still free uncancelled result =>
    rw [result]
    exact chained_of_eq chained rfl rfl rfl rfl (fun _ => rfl) (fun _ => id)

theorem stageOf_call (s : State V) (k k' : Nat) (stage : Stage) :
    ((s.stageOf k stage).callback k').call = (s.callback k').call := by
  by_cases same : k' = k
  · simp [State.stageOf, same]
  · simp [State.stageOf, same]

theorem chained_settles {s : State V} (chained : Chained s) {k : Nat} {outcome : Outcome} (made : k < s.callbacks)
    (pending : (s.callback k).stage = .pending) : Chained ((s.stageOf k .settling).queue [.react k outcome]) where
  unmade k' beyond := by
    simp only [State.queue, State.stageOf] at beyond ⊢
    rw [update_of_ne (by omega)]
    exact chained.unmade k' beyond
  single k' := by
    have before := chained.single k'
    simp only [State.queue, State.stageOf, List.countP_append, List.countP_singleton, ofCallback, decide_eq_true_eq]
    by_cases same : k' = k
    · subst same
      rw [pending] at before
      rw [before, if_pos rfl, update_self]
      rfl
    · rw [before, if_neg (Ne.symm same), update_of_ne same, Nat.add_zero]
  waits k' job mem := by
    simp only [State.queue, State.stageOf]
    by_cases same : k' = k
    · rw [same, update_self]
      simp
    · rw [update_of_ne same]
      exact chained.waits k' job mem
  plain := chained.plain
  own k' c e mem := by
    have call := chained.own k' c e mem
    rwa [← stageOf_call s k k' .settling] at call
  active c k' is := by
    obtain ⟨call, queued⟩ := chained.active c k' is
    simp only [State.queue, State.stageOf]
    by_cases same : k' = k
    · subst same
      rw [update_self]
      exact ⟨call, .inr ⟨.react k' outcome, by simp, by simp [early]⟩⟩
    · rw [update_of_ne same]
      refine ⟨call, queued.imp_right ?_⟩
      rintro ⟨job, mem, is⟩
      exact ⟨job, List.mem_append_left _ mem, is⟩
  rejected job mem k' is := by
    rcases List.mem_append.mp mem with mem | mem
    · have shut := chained.rejected job mem k' is
      rwa [← (stageOf_call s k k' .settling)] at shut
    · cases List.mem_singleton.mp mem
      cases is

theorem chained_onward {s : State V} (chained : Chained s) (k : Nat) {job : Job} (next : Job) {rest : List Job}
    (head : s.jobs = job :: rest) (of : ∀ k', ofCallback k' job = decide (k = k'))
    (onward : ∀ k', ofCallback k' next = decide (k = k'))
    (queued : ∀ c, (s.call c).active = some k → early k next = true)
    (shut : rejects k next = true → (s.call (s.callback k).call).closed = true) :
    Chained { s with jobs := rest ++ [next] } where
  unmade := chained.unmade
  single k' := by
    have before := chained.single k'
    simp only [head, List.countP_cons, of k'] at before
    simp only [List.countP_append, List.countP_singleton, onward k']
    omega
  waits := chained.waits
  plain := chained.plain
  own := chained.own
  active c k' is := by
    obtain ⟨call, pending | ⟨first, mem, is'⟩⟩ := chained.active c k' is
    · exact ⟨call, .inl pending⟩
    · refine ⟨call, .inr ?_⟩
      by_cases same : k' = k
      · subst same
        exact ⟨next, by simp, queued c is⟩
      · rw [head] at mem
        rcases List.mem_cons.mp mem with rfl | mem
        · have other := ofCallback_of_early is'
          rw [of k', decide_eq_true_eq] at other
          exact absurd other.symm same
        · exact ⟨first, List.mem_append_left _ mem, is'⟩
  rejected first mem k' is := by
    rcases List.mem_append.mp mem with mem | mem
    · exact chained.rejected first (head ▸ List.mem_cons_of_mem _ mem) k' is
    · cases List.mem_singleton.mp mem
      have same := ofCallback_of_rejects is
      rw [onward k', decide_eq_true_eq] at same
      subst same
      exact shut is

theorem chained_clear {s : State V} (chained : Chained s) {k : Nat} {fulfilled : Bool} {rest : List Job}
    (head : s.jobs = .clear k fulfilled :: rest) :
    Chained { s.setCall (s.callback k).call { s.call (s.callback k).call with active := none } with
              jobs := rest ++ [.relay k, .adopt k fulfilled] } := by
  have cleared : Chained (s.setCall (s.callback k).call { s.call (s.callback k).call with active := none }) := by
    refine ⟨chained.unmade, chained.single, chained.waits, chained.plain, chained.own, ?_, ?_⟩
    · intro c k' is
      by_cases same : c = (s.callback k).call
      · simp [State.setCall, same] at is
      · simp only [State.setCall, update_of_ne same] at is
        exact chained.active c k' is
    · intro job mem k' is
      have shut := chained.rejected job mem k' is
      simp only [State.setCall]
      by_cases same : (s.callback k').call = (s.callback k).call
      · rw [same] at shut ⊢
        rwa [update_self]
      · rwa [update_of_ne same]
  have relayed := chained_queue cleared [.relay k] (by simp [ofCallback])
  have behind : (s.setCall (s.callback k).call { s.call (s.callback k).call with active := none } |>.queue [.relay k]).jobs =
      .clear k fulfilled :: (rest ++ [.relay k]) := by
    simp only [State.queue, State.setCall, head, List.cons_append]
  have onward := chained_onward relayed k (.adopt k fulfilled) behind (fun _ => rfl) (fun _ => rfl) ?_ ?_
  · simp only [State.queue, List.append_assoc, List.cons_append, List.nil_append] at onward
    exact onward
  · intro c is
    -- the field has just been cleared
    have call := (relayed.active c k is).1
    simp only [State.queue, State.setCall] at is call
    rw [call, update_self] at is
    cases is
  · intro is
    apply relayed.rejected (.clear k fulfilled) (by simp [State.queue, State.setCall, head]) k
    simpa [rejects] using is

/-- The promise has settled, and what waited for it is queued. -/
theorem chained_settle {s : State V} (chained : Chained s) {k : Nat} {fulfilled : Bool} {rest : List Job}
    (head : s.jobs = .settle k fulfilled :: rest) :
    Chained { s.stageOf k .settled with
              jobs := rest ++ ((s.reactions.filter fun r => r.1 = k).map Prod.snd).filter (State.passes fulfilled)
              reactions := s.reactions.filter fun r => r.1 ≠ k } := by
  have is : ofCallback k (.settle k fulfilled) = true := by simp [ofCallback]
  have last := none_behind chained head is
  have woken : ∀ job ∈ ((s.reactions.filter fun r => r.1 = k).map Prod.snd).filter (State.passes fulfilled),
      ∀ k', ofCallback k' job = false := by
    intro job mem
    obtain ⟨r, waiting, rfl⟩ := List.mem_map.mp (List.mem_of_mem_filter mem)
    exact chained.plain r.1 r.2 (List.mem_of_mem_filter waiting)
  have shorter : Chained { s.stageOf k .settled with
      jobs := rest, reactions := s.reactions.filter fun r => r.1 ≠ k } := by
    constructor
    · intro k' beyond
      simp only [State.stageOf] at beyond ⊢
      by_cases same : k' = k
      · rw [same, update_self]
      · rw [update_of_ne same]
        exact chained.unmade k' beyond
    · intro k'
      simp only [State.stageOf]
      by_cases same : k' = k
      · rw [same, last, update_self]
        rfl
      · rw [update_of_ne same]
        have before := chained.single k'
        rwa [head, List.countP_cons_of_neg (by simp [ofCallback, Ne.symm same])] at before
    · intro k' job mem
      rw [List.mem_filter, decide_eq_true_eq] at mem
      simp only [State.stageOf, update_of_ne mem.2]
      exact chained.waits k' job mem.1
    · intro k' job mem
      exact chained.plain k' job (List.mem_of_mem_filter mem)
    · intro k' c e mem
      have call := chained.own k' c e (List.mem_of_mem_filter mem)
      rwa [← stageOf_call s k k' .settled] at call
    · intro c k' active
      obtain ⟨call, queued⟩ := chained.active c k' active
      have other : k' ≠ k := by
        rintro rfl
        exact inactive_of_late chained head is rfl c active
      simp only [State.stageOf, update_of_ne other]
      refine ⟨call, queued.imp_right ?_⟩
      rintro ⟨job, mem, early⟩
      rw [head] at mem
      rcases List.mem_cons.mp mem with rfl | mem
      · cases early
      · exact ⟨job, mem, early⟩
    · intro job mem k' is
      have shut := chained.rejected job (head ▸ List.mem_cons_of_mem _ mem) k' is
      rwa [← stageOf_call s k k' .settled] at shut
  exact chained_queue shorter _ woken

theorem chained_promises {s : State V} (chained : Chained s) (c e : Nat) (below : List Frame) :
    Chained { s.setCall c { s.call c with active := some s.callbacks } with
              stack := below
              callbacks := s.callbacks + 1
              callback := update s.callback s.callbacks ⟨c, e, .pending⟩ } := by
  have fresh : ∀ k, (s.callback k).stage ≠ .settled → k ≠ s.callbacks := by
    rintro k open' rfl
    exact open' (chained.unmade _ (Nat.le_refl _))
  have unqueued : ∀ job ∈ s.jobs, ofCallback s.callbacks job = false := by
    intro job mem
    by_contra is
    have settling := settling_of_job chained mem (by simpa using is)
    rw [chained.unmade _ (Nat.le_refl _)] at settling
    cases settling
  constructor
  · intro k beyond
    simp only at beyond ⊢
    rw [update_of_ne (by omega)]
    exact chained.unmade k (by omega)
  · intro k
    simp only [State.setCall]
    by_cases same : k = s.callbacks
    · rw [same, update_self]
      rw [List.countP_eq_zero.mpr fun job mem => by rw [unqueued job mem]; exact Bool.false_ne_true]
      rfl
    · rw [update_of_ne same]
      exact chained.single k
  · intro k job mem
    have open' := chained.waits k job mem
    simp only [update_of_ne (fresh k open')]
    exact open'
  · exact chained.plain
  · intro k c' e' mem
    simp only [update_of_ne (fresh k (chained.waits k _ mem))]
    exact chained.own k c' e' mem
  · intro c' k active
    simp only [State.setCall] at active ⊢
    by_cases same : c' = c
    · rw [same, update_self] at active
      cases active
      rw [update_self]
      exact ⟨same.symm, .inl rfl⟩
    · rw [update_of_ne same] at active
      rw [update_of_ne (fresh k (active_unsettled chained active))]
      exact chained.active c' k active
  · intro job mem k is
    have shut := chained.rejected job mem k is
    have settling := settling_of_job chained mem (ofCallback_of_rejects is)
    simp only [State.setCall, update_of_ne (fresh k (by rw [settling]; simp))]
    by_cases same : (s.callback k).call = c
    · rw [same] at shut ⊢
      rwa [update_self]
    · rwa [update_of_ne same]

/-- A new call has no promise, and no promise is of a new call. -/
theorem chained_made {s : State V} (chained : Chained s) (named : Named s) (call : SubStreamCall) (log : List Event)
    (free : call.active = none) : Chained { s.setCall s.calls call with calls := s.calls + 1, log := log } := by
  refine ⟨chained.unmade, chained.single, chained.waits, chained.plain, chained.own, ?_, ?_⟩
  · intro c k active
    simp only [State.setCall] at active
    by_cases same : c = s.calls
    · rw [same, update_self, free] at active
      cases active
    · rw [update_of_ne same] at active
      exact chained.active c k active
  · intro job mem k is
    have settling := settling_of_job chained mem (ofCallback_of_rejects is)
    have earlier : k < s.callbacks := by
      by_contra beyond
      rw [chained.unmade k (by omega)] at settling
      cases settling
    have made := known_made (named _ _ (.inr (.inr (.inr (.inr ⟨k, earlier, rfl, rfl⟩)))))
    simp only [State.setCall, update_of_ne (Nat.ne_of_lt made)]
    exact chained.rejected job mem k is

theorem move_chained {s t : State V} {a : Action V} (named : Named s) (chained : Chained s) (move : Move s a t) : Chained t := by
  cases move with
  | idle passive => exact passive_chained chained passive
  | post result =>
    rw [result]
    exact chained_queue chained _ (by simp [ofCallback])
  | watch _ open' result =>
    rw [result]
    exact chained_react chained open' (fun _ => rfl) nofun
  | foreign _ head result =>
    rw [result]
    exact chained_of_eq (chained_pop chained head (fun _ => rfl)) rfl rfl rfl rfl (fun _ => rfl) (fun _ => id)
  | leave _ result =>
    rw [result]
    exact chained_of_eq chained rfl rfl rfl rfl (fun _ => rfl) (fun _ => id)
  | emit action running genuine notes result =>
    rename_i context v noted
    have noting : Chained noted := by
      rw [notes]
      exact chained_of_eq chained rfl rfl rfl rfl (fun _ => rfl) (fun _ => id)
    cases target : context.localValue .call with
    | some c =>
      rw [target] at result
      exact delivered_chained noting result
    | none =>
      rw [target] at result
      rwa [result]
  | wake _ head result => exact delivered_chained (chained_pop chained head (fun _ => rfl)) result
  | made _ result | refused _ result =>
    rw [result]
    exact chained_made chained named _ _ rfl
  | ends _ passive =>
    apply passive_chained _ passive
    exact chained_of_eq chained rfl rfl rfl rfl (fun _ => rfl) (fun _ => id)
  | promises _ result =>
    rw [result]
    exact chained_promises chained _ _ _
  | settles made pending passive => exact passive_chained (chained_settles chained made pending) passive
  | react alone head passive failed =>
    rename_i k outcome fulfilled rest
    have before : Chained { t with jobs := s.jobs } :=
      chained_of_eq chained passive.callbacks passive.callback passive.reactions rfl passive.active passive.closed
    have onward := chained_onward before k (.clear k fulfilled) head (fun _ => rfl) (fun _ => rfl) ?_ ?_
    · have queued : t.jobs = rest ++ [.clear k fulfilled] := passive.jobs
      rw [← queued] at onward
      exact onward
    · intro c _
      simp [early]
    · intro is
      have same := congrFun passive.callback k
      simp only [rejects, decide_true, Bool.true_and, Bool.not_eq_true'] at is
      rw [same]
      exact failed is
  | clear _ head result =>
    rw [result]
    exact chained_clear chained head
  | relay _ head result =>
    rw [result]
    exact chained_pop chained head (fun _ => rfl)
  | adopt alone head result =>
    rename_i k fulfilled rest
    rw [result]
    apply chained_onward chained k _ head (fun _ => rfl) (fun _ => rfl)
    · intro c active
      exact absurd active (inactive_of_late chained head (by simp [ofCallback]) rfl c)
    · intro is
      exact chained.rejected _ (head ▸ List.mem_cons_self) k (by simpa [rejects] using is)
  | settle _ head result =>
    rw [result]
    exact chained_settle chained head
  | closes _ _ passive _ result =>
    rw [result]
    exact chained_phase (passive_chained chained passive) _ _
  | returns _ _ result =>
    rw [result]
    exact chained_of_eq (chained_phase chained _ _) rfl rfl rfl rfl (fun _ => rfl) (fun _ => id)

end SubStreams
