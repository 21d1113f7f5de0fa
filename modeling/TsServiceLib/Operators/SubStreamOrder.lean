import TsServiceLib.Operators.DeliveryBatches
import TsServiceLib.Operators.SubStreamProgress

/-!
The order in which the values of one call reach its collector. Deliveries that
wait for one promise wake in their order and keep it. But `#active` is cleared
some jobs before they wake: a delivery made in between finds it free and starts
at once, before the ones that wait.
-/
namespace SubStreams
open Function Transitions LocalValues EventLogs
variable {V : Type}

def startedOf (c : Nat) : Event → Option Nat
  | .started c' e => if c' = c then some e else none
  | _ => none

def waitingOf (c : Nat) (r : Nat × Job) : Option (Nat × Nat) := (wakeOf c r.2).map fun e => (r.1, e)

namespace State

/-- The emissions that have reached the collector of the call, the last one first. -/
def begun (s : State V) (c : Nat) : List Nat := s.log.filterMap (startedOf c)

/-- The deliveries of the call that wait, each with the promise it waits for. -/
def waiting (s : State V) (c : Nat) : List (Nat × Nat) := s.reactions.filterMap (waitingOf c)

def woken (s : State V) (c : Nat) : List Nat := s.jobs.filterMap (wakeOf c)

end State

/-- The values of the call have reached the collector in the order of the
    deliveries. An emission is delivered as it is numbered. -/
def InOrder (s : State V) (c : Nat) : Prop := (s.begun c).Pairwise (· > ·)

/-- When a value is delivered to a call, every delivery of the call that waits
    does so on the promise that `#active` holds at that moment. -/
def Orderly (s : State V) (a : Action V) : Prop :=
  ∀ context value c, a = .emit context value → context.localValue .call = some c →
    s.woken c = [] ∧ ∀ r ∈ s.waiting c, (s.call c).active = some r.1

structure Ordered (s : State V) (c : Nat) : Prop where
  begun : InOrder s c
  queue : ((s.waiting c).map Prod.snd ++ s.woken c).Pairwise (· < ·)
  behind : ∀ d ∈ s.begun c, ∀ e ∈ (s.waiting c).map Prod.snd ++ s.woken c, d < e
  one : ∀ r ∈ s.waiting c, ∀ r' ∈ s.waiting c, r.1 = r'.1
  batch : Batched c (s.waiting c ≠ []) s.jobs
  held : s.woken c ≠ [] → ∀ r ∈ s.waiting c, (s.call c).active = some r.1
  frames : 0 < s.stack.countP (Frame.inside c) → s.woken c ≠ [] → s.waiting c = []

theorem mem_begun {s : State V} {c e : Nat} : e ∈ s.begun c ↔ .started c e ∈ s.log := by
  simp only [State.begun, List.mem_filterMap]
  constructor
  · rintro ⟨event, mem, is⟩
    cases event with
    | started c' e' =>
      simp only [startedOf] at is
      split at is
      · rename_i same
        cases is
        rwa [← same]
      · cases is
    | _ => cases is
  · intro mem
    exact ⟨_, mem, by simp [startedOf]⟩

theorem mem_waiting {s : State V} {c k e : Nat} : (k, e) ∈ s.waiting c ↔ (k, .wake c e) ∈ s.reactions := by
  simp only [State.waiting, List.mem_filterMap]
  constructor
  · rintro ⟨⟨k', job⟩, mem, is⟩
    cases job with
    | wake c' e' =>
      simp only [waitingOf, wakeOf] at is
      split at is
      · rename_i same
        cases is
        rwa [← same]
      · cases is
    | _ => cases is
  · intro mem
    exact ⟨_, mem, by simp [waitingOf, wakeOf]⟩

/-- The same deliveries of the call, in a queue whose batch stands as well as before. -/
theorem ordered_of_eq {s t : State V} {c : Nat} (ordered : Ordered s c) (begun : t.begun c = s.begun c)
    (waiting : t.waiting c = s.waiting c) (woken : t.woken c = s.woken c)
    (batch : Batched c (s.waiting c ≠ []) t.jobs)
    (held : s.woken c ≠ [] → ∀ r ∈ s.waiting c, (t.call c).active = some r.1)
    (frames : 0 < t.stack.countP (Frame.inside c) → s.woken c ≠ [] → s.waiting c = []) : Ordered t c := by
  constructor
  · rw [InOrder, begun]
    exact ordered.begun
  · rw [waiting, woken]
    exact ordered.queue
  · rw [begun, waiting, woken]
    exact ordered.behind
  · rw [waiting]
    exact ordered.one
  · rw [waiting]
    exact batch
  · rw [woken, waiting]
    exact held
  · rw [woken, waiting]
    exact frames

theorem passive_begun {s t : State V} (passive : Passive s t) (c : Nat) : t.begun c = s.begun c := by
  obtain ⟨news, split, quiet, _⟩ := passive.log
  have none : news.filterMap (startedOf c) = [] := by
    rw [List.filterMap_eq_nil_iff]
    intro event mem
    cases event with
    | started c' e =>
      exact absurd mem (quiet c' e)
    | _ => rfl
  rw [State.begun, split, List.filterMap_append, none, List.nil_append]
  rfl

theorem passive_ordered {s t : State V} {c : Nat} (ordered : Ordered s c) (passive : Passive s t) : Ordered t c := by
  apply ordered_of_eq ordered (passive_begun passive c)
  · rw [State.waiting, State.waiting, passive.reactions]
  · rw [State.woken, State.woken, passive.jobs]
  · rw [passive.jobs]
    exact ordered.batch
  · rw [passive.active c]
    exact ordered.held
  · rw [passive.stack]
    exact ordered.frames

theorem delivered_other {s t : State V} {c c' e : Nat} (other : c' ≠ c) (ordered : Ordered s c)
    (result : Delivered s c' e t) : Ordered t c := by
  cases result with
  | dropped passive closed => exact passive_ordered ordered passive
  | waits active result =>
    rename_i k
    have waiting : t.waiting c = s.waiting c := by
      rw [result]
      simp [State.waiting, waitingOf, wakeOf, other]
    subst result
    exact ordered_of_eq ordered rfl waiting rfl ordered.batch ordered.held ordered.frames
  | starts still free uncancelled result =>
    have begun : t.begun c = s.begun c := by
      rw [result]
      simp [State.begun, State.enter, startedOf, other]
    have inside : t.stack.countP (Frame.inside c) = s.stack.countP (Frame.inside c) := by
      rw [result]
      simp [Frame.inside, other]
    have frames := ordered.frames
    rw [← inside] at frames
    subst result
    exact ordered_of_eq ordered begun rfl rfl ordered.batch ordered.held frames

theorem delivered_new {s t : State V} {c e : Nat} (ordered : Ordered s c) (asleep : s.woken c = [])
    (joined : ∀ r ∈ s.waiting c, (s.call c).active = some r.1)
    (newest : ∀ d, d ∈ s.begun c ∨ d ∈ (s.waiting c).map Prod.snd → d < e) (result : Delivered s c e t) :
    Ordered t c := by
  cases result with
  | dropped passive closed => exact passive_ordered ordered passive
  | waits active result =>
    rename_i k
    have waiting : t.waiting c = s.waiting c ++ [(k, e)] := by
      rw [result]
      simp [State.waiting, waitingOf, wakeOf]
    have woken : t.woken c = [] := by
      rw [result]
      exact asleep
    have begun : t.begun c = s.begun c := by
      rw [result]
      rfl
    have queue := ordered.queue
    rw [asleep, List.append_nil] at queue
    constructor
    · rw [InOrder, begun]
      exact ordered.begun
    · rw [waiting, woken, List.append_nil, List.map_append, List.pairwise_append]
      refine ⟨queue, by simp, ?_⟩
      intro d mem e' is
      cases List.mem_singleton.mp is
      exact newest d (.inr mem)
    · rw [begun, waiting, woken, List.append_nil, List.map_append]
      intro d mem e' is
      rcases List.mem_append.mp is with is | is
      · exact ordered.behind d mem e' (List.mem_append_left _ is)
      · cases List.mem_singleton.mp is
        exact newest d (.inl mem)
    · rw [waiting]
      have same : ∀ r ∈ s.waiting c ++ [(k, e)], r.1 = k := by
        intro r mem
        rcases List.mem_append.mp mem with mem | mem
        · exact Option.some.inj ((joined r mem).symm.trans active)
        · cases List.mem_singleton.mp mem
          rfl
      intro r mem r' mem'
      rw [same r mem, same r' mem']
    · apply batched_of_none
      exact wakeOf_none_iff.mpr woken
    · intro awake
      exact absurd woken awake
    · intro _ awake
      exact absurd woken awake
  | starts still free uncancelled result =>
    have alone : s.waiting c = [] := by
      apply List.eq_nil_iff_forall_not_mem.mpr
      intro r mem
      have is := joined r mem
      rw [free] at is
      cases is
    have begun : t.begun c = e :: s.begun c := by
      rw [result]
      simp [State.begun, State.enter, startedOf]
    have waiting : t.waiting c = [] := by
      rw [result]
      exact alone
    have woken : t.woken c = [] := by
      rw [result]
      exact asleep
    constructor
    · rw [InOrder, begun, List.pairwise_cons]
      exact ⟨fun d mem => newest d (.inl mem), ordered.begun⟩
    · simp [waiting, woken]
    · simp [waiting, woken]
    · simp [waiting]
    · apply batched_of_none
      exact wakeOf_none_iff.mpr woken
    · intro awake
      exact absurd woken awake
    · intro _ awake
      exact absurd woken awake

/-- A woken delivery takes its turn: what waits again waits before the rest of
    its batch, and one that starts is the first of all that wait. -/
theorem delivered_woken {s t : State V} {c e : Nat} {rest : List Job} (ordered : Ordered s c) (alone : s.stack = [])
    (head : s.jobs = .wake c e :: rest) (result : Delivered { s with jobs := rest } c e t) : Ordered t c := by
  have woken : s.woken c = e :: rest.filterMap (wakeOf c) := by
    rw [State.woken, head, List.filterMap_cons_some (wakeOf_self c e)]
  have awake : s.woken c ≠ [] := by simp [woken]
  have first : Batched c True s.jobs := by
    have batch := ordered.batch
    rw [head] at batch ⊢
    exact batched_at_head (wakeOf_self c e) batch
  have tail : Batched c True rest := by
    rw [head] at first
    exact batched_tail first
  have queue := ordered.queue
  rw [woken] at queue
  have behind := ordered.behind
  rw [woken] at behind
  have popped : Ordered { s with jobs := rest } c := by
    constructor
    · exact ordered.begun
    · exact queue.sublist (List.Sublist.append_left (List.sublist_cons_self _ _) _)
    · intro d mem e' is
      apply behind d mem e'
      rcases List.mem_append.mp is with is | is
      · exact List.mem_append_left _ is
      · exact List.mem_append_right _ (List.mem_cons_of_mem _ is)
    · exact ordered.one
    · exact batched_mono tail (fun _ => trivial)
    · exact fun _ => ordered.held awake
    · intro inside
      simp [alone] at inside
  cases result with
  | dropped passive closed => exact passive_ordered popped passive
  | waits active result =>
    rename_i k
    have waiting : t.waiting c = s.waiting c ++ [(k, e)] := by
      rw [result]
      simp [State.waiting, waitingOf, wakeOf]
    have remaining : t.woken c = rest.filterMap (wakeOf c) := by
      rw [result]
      rfl
    have begun : t.begun c = s.begun c := by
      rw [result]
      rfl
    have same : ∀ r ∈ s.waiting c ++ [(k, e)], r.1 = k := by
      intro r mem
      rcases List.mem_append.mp mem with mem | mem
      · exact Option.some.inj ((ordered.held awake r mem).symm.trans active)
      · cases List.mem_singleton.mp mem
        rfl
    constructor
    · rw [InOrder, begun]
      exact ordered.begun
    · rw [waiting, remaining]
      simpa using queue
    · rw [begun, waiting, remaining]
      simpa using behind
    · rw [waiting]
      intro r mem r' mem'
      rw [same r mem, same r' mem']
    · rw [result]
      exact batched_mono tail (fun _ => trivial)
    · intro _ r mem
      rw [waiting] at mem
      rw [same r mem, result]
      exact active
    · intro inside
      rw [result] at inside
      simp [alone] at inside
  | starts still free uncancelled result =>
    have nobody : s.waiting c = [] := by
      apply List.eq_nil_iff_forall_not_mem.mpr
      intro r mem
      have is := ordered.held awake r mem
      have free : (s.call c).active = none := free
      rw [free] at is
      cases is
    have begun : t.begun c = e :: s.begun c := by
      rw [result]
      simp [State.begun, State.enter, startedOf]
    have waiting : t.waiting c = [] := by
      rw [result]
      exact nobody
    have remaining : t.woken c = rest.filterMap (wakeOf c) := by
      rw [result]
      rfl
    rw [nobody] at queue behind
    simp only [List.map_nil, List.nil_append, List.pairwise_cons] at queue behind
    constructor
    · rw [InOrder, begun, List.pairwise_cons]
      exact ⟨fun d mem => behind d mem e List.mem_cons_self, ordered.begun⟩
    · rw [waiting, remaining]
      exact queue.2
    · rw [begun, waiting, remaining]
      intro d mem e' is
      rcases List.mem_cons.mp mem with rfl | mem
      · exact queue.1 e' is
      · exact behind d mem e' (List.mem_cons_of_mem _ is)
    · simp [waiting]
    · rw [result]
      exact batched_mono tail (fun _ => trivial)
    · simp [waiting]
    · exact fun _ _ => waiting

/-- A job of a chain at the head of the queue: a call with woken deliveries has
    none that wait, for these would stand at the head. -/
theorem none_waiting {s : State V} {c : Nat} {job : Job} {rest : List Job} (ordered : Ordered s c)
    (head : s.jobs = job :: rest) (plain : ofBatch c job = false) (awake : s.woken c ≠ []) : s.waiting c = [] := by
  have batch := ordered.batch
  rw [State.woken, head] at awake
  rw [head] at batch
  by_contra waits
  exact not_started_of_head plain awake batch waits

/-- A job is taken that is no delivery of the call, and others are queued that
    are none either. -/
theorem ordered_jobs {s t : State V} {c : Nat} {job : Job} {rest : List Job} (more : List Job) (ordered : Ordered s c)
    (head : s.jobs = job :: rest) (plain : wakeOf c job = none) (jobs : t.jobs = rest ++ more)
    (others : ∀ job ∈ more, wakeOf c job = none) (log : t.log = s.log) (reactions : t.reactions = s.reactions)
    (held : s.woken c ≠ [] → ∀ r ∈ s.waiting c, (t.call c).active = some r.1)
    (frames : t.stack.countP (Frame.inside c) = 0) : Ordered t c := by
  have woken : t.woken c = s.woken c := by
    rw [State.woken, State.woken, jobs, head, List.filterMap_append, wakeOf_none_iff.mp others, List.append_nil,
      List.filterMap_cons_none plain]
  have batch := ordered.batch
  rw [head] at batch
  apply ordered_of_eq ordered
  · rw [State.begun, log]
    rfl
  · rw [State.waiting, reactions]
    rfl
  · exact woken
  · rw [jobs]
    exact batched_append (batched_tail batch) others
  · exact held
  · omega

theorem ordered_queue {s : State V} {c : Nat} (ordered : Ordered s c) (more : List Job)
    (others : ∀ job ∈ more, wakeOf c job = none) : Ordered (s.queue more) c := by
  have woken : (s.queue more).woken c = s.woken c := by
    simp only [State.woken, State.queue, List.filterMap_append, wakeOf_none_iff.mp others, List.append_nil]
  exact ordered_of_eq ordered rfl rfl woken (batched_append ordered.batch others) ordered.held ordered.frames

/-- What a settled promise wakes had waited, in the same order. -/
theorem woken_sublist (s : State V) (c k : Nat) (fulfilled : Bool) :
    ((((s.reactions.filter fun r => r.1 = k).map Prod.snd).filter (State.passes fulfilled)).filterMap (wakeOf c)).Sublist
      ((s.waiting c).map Prod.snd) := by
  have waited : (s.waiting c).map Prod.snd = s.reactions.filterMap (fun r => wakeOf c r.2) := by
    simp only [State.waiting, List.map_filterMap, waitingOf, Option.map_map]
    congr
    funext r
    cases wakeOf c r.2 <;> rfl
  rw [waited]
  have passed := (List.filter_sublist (p := State.passes fulfilled)
    (l := (s.reactions.filter fun r => r.1 = k).map Prod.snd)).filterMap (wakeOf c)
  rw [List.filterMap_map] at passed
  exact passed.trans (List.filter_sublist.filterMap _)

/-- The deliveries that waited for a settled promise wake as one batch. -/
theorem settle_wakes {s : State V} {c k : Nat} {fulfilled : Bool} {rest : List Job} (chained : Chained s)
    (ordered : Ordered s c) (head : s.jobs = .settle k fulfilled :: rest) (here : ∃ r ∈ s.waiting c, r.1 = k) :
    Ordered { s.stageOf k .settled with
              jobs := rest ++ ((s.reactions.filter fun r => r.1 = k).map Prod.snd).filter (State.passes fulfilled)
              reactions := s.reactions.filter fun r => r.1 ≠ k } c := by
  have sublist := woken_sublist s c k fulfilled
  obtain ⟨r, mem, rfl⟩ := here
  have asleep : s.woken c = [] := by
    by_contra awake
    rw [none_waiting ordered head rfl awake] at mem
    cases mem
  have call : (s.callback r.1).call = c := chained.own r.1 c r.2 (mem_waiting.mp mem)
  have unwoken : rest.filterMap (wakeOf c) = [] := by
    rw [State.woken, head, List.filterMap_cons_none rfl] at asleep
    exact asleep
  have queue := ordered.queue
  have behind := ordered.behind
  rw [asleep, List.append_nil] at queue behind
  have waiting : (s.reactions.filter fun q => q.1 ≠ r.1).filterMap (waitingOf c) = [] := by
    rw [List.filterMap_eq_nil_iff]
    intro q is
    rw [List.mem_filter, decide_eq_true_eq] at is
    by_contra some
    obtain ⟨w, found⟩ := Option.ne_none_iff_exists'.mp some
    have waits : w ∈ s.waiting c := List.mem_filterMap.mpr ⟨q, is.1, found⟩
    have same := ordered.one w waits r mem
    obtain ⟨e, _, rfl⟩ := Option.map_eq_some_iff.mp found
    exact is.2 same
  constructor
  · exact ordered.begun
  · simp only [State.waiting, State.woken, waiting, List.filterMap_append, unwoken, List.map_nil, List.nil_append]
    exact queue.sublist sublist
  · simp only [State.waiting, State.woken, waiting, List.filterMap_append, unwoken, List.map_nil, List.nil_append]
    exact fun d began e is => behind d began e (sublist.subset is)
  · simp only [State.waiting, waiting]
    simp
  · refine ⟨rest, _, [], by rw [List.append_nil], wakeOf_none_iff.mpr unwoken, ?_, by simp, ?_⟩
    · intro job is
      obtain ⟨⟨k, job⟩, waits, rfl⟩ := List.mem_map.mp (List.mem_of_mem_filter is)
      rw [List.mem_filter, decide_eq_true_eq] at waits
      cases job with
      | wake c' e =>
        have own := chained.own k c' e waits.1
        simp only at waits
        rw [waits.2, call] at own
        simp [ofBatch, own]
      | foreign | relay _ => rfl
      | react k' _ | clear k' _ | adopt k' _ | settle k' _ =>
        have none := chained.plain k _ waits.1 k'
        simp [ofCallback] at none
    · intro waits
      simp only [State.waiting, waiting] at waits
      exact absurd rfl waits
  · simp only [State.waiting, waiting]
    simp
  · simp only [State.waiting, waiting]
    simp

/-- A promise that no delivery of the call waited for. -/
theorem settle_passes {s : State V} {c k : Nat} {fulfilled : Bool} {rest : List Job} (ordered : Ordered s c)
    (alone : s.stack = []) (head : s.jobs = .settle k fulfilled :: rest) (elsewhere : ∀ r ∈ s.waiting c, r.1 ≠ k) :
    Ordered { s.stageOf k .settled with
              jobs := rest ++ ((s.reactions.filter fun r => r.1 = k).map Prod.snd).filter (State.passes fulfilled)
              reactions := s.reactions.filter fun r => r.1 ≠ k } c := by
  have plain : ∀ q ∈ s.reactions, q.1 = k → wakeOf c q.2 = none := by
    intro q mem same
    by_contra some
    obtain ⟨e, found⟩ := Option.ne_none_iff_exists'.mp some
    exact elsewhere (q.1, e) (List.mem_filterMap.mpr ⟨q, mem, by rw [waitingOf, found]; rfl⟩) same
  have waiting : (s.reactions.filter fun q => q.1 ≠ k).filterMap (waitingOf c) = s.waiting c := by
    rw [State.waiting, List.filterMap_filter]
    apply List.filterMap_congr
    intro q mem
    by_cases same : q.1 = k
    · simp [same, waitingOf, plain q mem same]
    · simp [same]
  have none : ∀ job ∈ ((s.reactions.filter fun r => r.1 = k).map Prod.snd).filter (State.passes fulfilled),
      wakeOf c job = none := by
    intro job is
    obtain ⟨q, waits, rfl⟩ := List.mem_map.mp (List.mem_of_mem_filter is)
    rw [List.mem_filter, decide_eq_true_eq] at waits
    exact plain q waits.1 waits.2
  have jobs : Ordered { s with
      jobs := rest ++ ((s.reactions.filter fun r => r.1 = k).map Prod.snd).filter (State.passes fulfilled) } c := by
    exact ordered_jobs _ ordered head rfl rfl none rfl rfl ordered.held (by simp [alone])
  exact ordered_of_eq jobs rfl waiting rfl jobs.batch jobs.held jobs.frames

theorem made_ordered {s : State V} {c : Nat} (named : Named s) (ordered : Ordered s c) (call : SubStreamCall)
    (log : List Event) (begun : log.filterMap (startedOf c) = s.begun c) :
    Ordered { s.setCall s.calls call with calls := s.calls + 1, log := log } c := by
  have held : s.woken c ≠ [] → ∀ r ∈ s.waiting c, (update s.call s.calls call c).active = some r.1 := by
    intro awake r waits
    have made := known_made (named c r.2 (.inr (.inl ⟨r.1, mem_waiting.mp waits⟩)))
    rw [update_of_ne (Nat.ne_of_lt made)]
    exact ordered.held awake r waits
  exact ordered_of_eq ordered begun rfl rfl ordered.batch held ordered.frames

theorem phase_ordered {s : State V} {c : Nat} (ordered : Ordered s c) (c' : Nat) (phase : Phase) :
    Ordered (s.setCall c' { s.call c' with phase := phase }) c := by
  have held : s.woken c ≠ [] → ∀ r ∈ s.waiting c,
      (update s.call c' { s.call c' with phase := phase } c).active = some r.1 := by
    intro awake r waits
    have before := ordered.held awake r waits
    by_cases same : c = c'
    · subst same
      rwa [update_self]
    · rwa [update_of_ne same]
  exact ordered_of_eq ordered rfl rfl rfl ordered.batch held ordered.frames

/-- The call whose callback answers with a promise has none that wait while
    others are woken. -/
theorem promises_ordered {s : State V} {c c' e : Nat} {below : List Frame} (ordered : Ordered s c)
    (top : s.stack = .callback c' e :: below) :
    Ordered { s.setCall c' { s.call c' with active := some s.callbacks } with
              stack := below
              callbacks := s.callbacks + 1
              callback := update s.callback s.callbacks ⟨c', e, .pending⟩ } c := by
  have held : s.woken c ≠ [] → ∀ r ∈ s.waiting c,
      (update s.call c' { s.call c' with active := some s.callbacks } c).active = some r.1 := by
    intro awake r waits
    by_cases same : c = c'
    · subst same
      have inside : 0 < s.stack.countP (Frame.inside c) := by simp [top, Frame.inside]
      rw [ordered.frames inside awake] at waits
      cases waits
    · rw [update_of_ne same]
      exact ordered.held awake r waits
  exact ordered_of_eq ordered rfl rfl rfl ordered.batch held
    (fun inside => ordered.frames (Nat.lt_of_lt_of_le inside (inside_below top c)))

theorem move_ordered {s t : State V} {a : Action V} {c : Nat} (sound : Sound s) (ordered : Ordered s c)
    (orderly : Orderly s a) (move : Move s a t) : Ordered t c := by
  cases move with
  | idle passive => exact passive_ordered ordered passive
  | post result =>
    rw [result]
    exact ordered_queue ordered _ (by simp [wakeOf])
  | watch _ _ result =>
    rename_i k made open'
    have waiting : t.waiting c = s.waiting c := by
      rw [result]
      simp [State.waiting, waitingOf, wakeOf]
    subst result
    exact ordered_of_eq ordered rfl waiting rfl ordered.batch ordered.held ordered.frames
  | foreign alone head result =>
    rename_i rest
    apply ordered_jobs [] ordered head rfl
    · rw [result, List.append_nil]
    · simp
    · rw [result]
    · rw [result]
    · rw [result]
      exact ordered.held
    · rw [result]
      simp [Frame.inside]
  | leave top result =>
    rename_i below
    have below : t.stack.countP (Frame.inside c) ≤ s.stack.countP (Frame.inside c) := by
      rw [result]
      exact inside_below top c
    subst result
    exact ordered_of_eq ordered rfl rfl rfl ordered.batch ordered.held
      (fun inside => ordered.frames (Nat.lt_of_lt_of_le inside below))
  | emit action running genuine notes result =>
    rename_i context v noted
    have noting : Ordered noted c := by
      rw [notes]
      exact ordered_of_eq ordered rfl rfl rfl ordered.batch ordered.held ordered.frames
    cases target : context.localValue .call with
    | none =>
      rw [target] at result
      rwa [result]
    | some c' =>
      rw [target] at result
      by_cases same : c' = c
      · subst same
        obtain ⟨asleep, joined⟩ := orderly context v c' action target
        have newest : ∀ d, Mentions s c' d → d < s.emissions.length := by
          intro d mention
          obtain ⟨emission, found, _⟩ := sound.named c' d mention
          exact (List.getElem?_eq_some_iff.mp found).1
        apply delivered_new noting _ _ _ result
        · rw [notes]
          exact asleep
        · rw [notes]
          exact joined
        · rw [notes]
          rintro d (began | waits)
          · exact newest d (.inl (mem_begun.mp (by simpa [State.begun, State.enter, startedOf] using began)))
          · obtain ⟨⟨k, d'⟩, mem, rfl⟩ := List.mem_map.mp waits
            exact newest d' (.inr (.inl ⟨k, mem_waiting.mp mem⟩))
      · exact delivered_other same noting result
  | wake alone head result =>
    rename_i c' e rest
    by_cases same : c' = c
    · subst same
      exact delivered_woken ordered alone head result
    · have popped : Ordered { s with jobs := rest } c := by
        apply ordered_jobs [] ordered head
        · simp [wakeOf, same]
        · rw [List.append_nil]
        · simp
        · rfl
        · rfl
        · exact ordered.held
        · simp [alone]
      exact delivered_other same popped result
  | made _ result =>
    rw [result]
    exact made_ordered sound.named ordered _ s.log rfl
  | refused _ result =>
    rw [result]
    exact made_ordered sound.named ordered _ _ rfl
  | ends top passive =>
    rename_i c' e below
    have popped : Ordered { s with stack := below } c :=
      ordered_of_eq ordered rfl rfl rfl ordered.batch ordered.held
        (fun inside => ordered.frames (Nat.lt_of_lt_of_le inside (inside_below top c)))
    exact passive_ordered popped passive
  | promises top result =>
    rw [result]
    exact promises_ordered ordered top
  | settles _ _ passive =>
    rename_i k outcome made pending
    have staged : Ordered (s.stageOf k .settling) c :=
      ordered_of_eq ordered rfl rfl rfl ordered.batch ordered.held ordered.frames
    have queued := ordered_queue staged [.react k outcome] (by simp [wakeOf])
    exact passive_ordered queued passive
  | react alone head passive _ =>
    rename_i k outcome fulfilled rest failed
    have onward : Ordered { s with jobs := rest ++ [.clear k fulfilled] } c :=
      ordered_jobs _ ordered head rfl rfl (by simp [wakeOf]) rfl rfl ordered.held (by simp [alone])
    exact passive_ordered onward passive
  | clear alone head result =>
    rename_i k fulfilled rest
    apply ordered_jobs [.relay k, .adopt k fulfilled] ordered head rfl
    · rw [result]
    · simp [wakeOf]
    · rw [result]
      rfl
    · rw [result]
      rfl
    · intro awake r waits
      rw [none_waiting ordered head rfl awake] at waits
      cases waits
    · rw [result]
      simp [State.setCall, alone]
  | relay alone head result =>
    rename_i k rest
    apply ordered_jobs [] ordered head rfl
    · rw [result, List.append_nil]
    · simp
    · rw [result]
    · rw [result]
    · rw [result]
      exact ordered.held
    · rw [result]
      simp [alone]
  | adopt alone head result =>
    rw [result]
    exact ordered_jobs _ ordered head rfl rfl (by simp [wakeOf]) rfl rfl ordered.held (by simp [alone])
  | settle alone head result =>
    rename_i k fulfilled rest
    rw [result]
    by_cases here : ∃ r ∈ s.waiting c, r.1 = k
    · exact settle_wakes sound.chained ordered head here
    · apply settle_passes ordered alone head
      intro r mem same
      exact here ⟨r, mem, same⟩
  | closes _ _ passive _ result =>
    rw [result]
    exact phase_ordered (passive_ordered ordered passive) _ _
  | returns _ _ result =>
    rw [result]
    apply passive_ordered (phase_ordered ordered _ _)
    exact passive_enter _ (by simp) (by simp) (by simp)

theorem initial_ordered (c : Nat) : Ordered (initial V) c := by
  constructor
  · exact List.Pairwise.nil
  · exact List.Pairwise.nil
  · exact nofun
  · exact nofun
  · exact batched_of_none nofun
  · exact fun awake => absurd rfl awake
  · exact fun _ awake => absurd rfl awake

/- Every run in which no value is delivered while an earlier delivery waits on a
   promise that `#active` no longer holds. -/
theorem results_keep_order {s : State V} (run : Steps step Orderly (initial V) s) (c : Nat) : InOrder s c := by
  have both := steps_invariant (fun s : State V => Sound s ∧ Ordered s c) ?_ run ⟨initial_sound, initial_ordered c⟩
  · exact both.2.begun
  · rintro s a t ⟨sound, ordered⟩ orderly next
    exact ⟨step_sound s a t sound next, move_ordered sound ordered orderly (step_move sound.held next)⟩

def orderlyCheck (s : State V) : Action V → Bool
  | .emit context _ =>
    match context.localValue .call with
    | some c => s.woken c = [] && (s.waiting c).all fun r => (s.call c).active = some r.1
    | none => true
  | _ => true

theorem orderlyCheck_sound (s : State V) (a : Action V) (passed : orderlyCheck s a = true) : Orderly s a := by
  rintro context value c rfl target
  simpa [orderlyCheck, target] using passed

/-- Three values, the last two of which wait for the callback of the first. -/
def patientDeliveries : List (Action Nat) :=
  let within := invocation 0 (.root 0)
  [.post, .run, .consume (.root 0), .emit within 1, .answer .promises, .emit within 2, .emit within 3,
    .settle 0 (.done false), .leave] ++ List.replicate 6 .run ++ [.answer .promises, .run, .settle 1 (.done false)] ++
    List.replicate 6 .run

theorem results_keep_order_patient : ∃ s : State Nat, s.begun 0 = [2, 1, 0] ∧ InOrder s 0 := by
  have runs : (execWhere step orderlyCheck (initial Nat) patientDeliveries).map (fun s => s.begun 0) = some [2, 1, 0] := by
    decide +kernel
  obtain ⟨s, run, begun⟩ := Option.map_eq_some_iff.mp runs
  exact ⟨s, begun, results_keep_order (execWhere_steps orderlyCheck_sound run) 0⟩

/-- The second value waits for the first callback. A third one is delivered by a
    job that comes after `#active` is cleared and before the second one wakes. -/
def overtakingDelivery : List (Action Nat) :=
  let within := invocation 0 (.root 0)
  [.post, .run, .consume (.root 0), .emit within 1, .answer .promises, .emit within 2, .settle 0 (.done false), .post,
    .leave, .run, .run, .post, .leave, .run, .run, .emit within 3, .answer (.returns false), .leave, .run, .run, .run,
    .run, .answer (.returns false)]

theorem result_overtakes : ¬∀ s : State Nat, Steps step Any (initial Nat) s → ∀ c, InOrder s c := by
  intro all
  have runs : (exec step (initial Nat) overtakingDelivery).map (fun s => s.begun 0) = some [1, 2, 0] := by
    decide +kernel
  obtain ⟨s, run, begun⟩ := Option.map_eq_some_iff.mp runs
  have order := all s (exec_steps run) 0
  rw [InOrder, begun] at order
  simp at order

end SubStreams
