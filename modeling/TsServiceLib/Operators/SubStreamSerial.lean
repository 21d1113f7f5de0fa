import TsServiceLib.Operators.SubStreamIsolation

/-!
One callback at a time. `consume` returns once the promise it found in `#active`
has settled, on every run. When no emission goes to a call from inside one of
its own callbacks, `#active` holds every promise whose callback may still run:
callbacks of a call never overlap, and none is left when `consume` returns.
-/
namespace SubStreams
open Function Transitions LocalValues EventLogs
variable {V : Type}

/-- The promises keep their call, and one that has settled stays settled. -/
structure Lasting (s t : State V) : Prop where
  callbacks : s.callbacks ≤ t.callbacks
  call : ∀ k < s.callbacks, (t.callback k).call = (s.callback k).call
  settled : ∀ k < s.callbacks, (s.callback k).stage = .settled → (t.callback k).stage = .settled

theorem lasting_of_eq {s t : State V} (callbacks : t.callbacks = s.callbacks) (callback : t.callback = s.callback) :
    Lasting s t where
  callbacks := Nat.le_of_eq callbacks.symm
  call _ _ := by rw [callback]
  settled _ _ settled := by rw [callback]; exact settled

theorem lasting_stageOf {s t : State V} {k : Nat} {stage : Stage} (callbacks : t.callbacks = s.callbacks)
    (callback : t.callback = (s.stageOf k stage).callback)
    (unsettled : stage = .settled ∨ (s.callback k).stage ≠ .settled) : Lasting s t where
  callbacks := Nat.le_of_eq callbacks.symm
  call k' _ := by rw [callback, stageOf_call]
  settled k' _ settled := by
    rw [callback]
    simp only [State.stageOf]
    by_cases same : k' = k
    · rw [same] at settled ⊢
      rw [update_self]
      exact unsettled.resolve_right (fun other => other settled)
    · rwa [update_of_ne same]

theorem delivered_lasting {s t : State V} {c e : Nat} (result : Delivered s c e t) : Lasting s t := by
  cases result with
  | dropped passive closed => exact lasting_of_eq passive.callbacks passive.callback
  | waits active result | starts still free uncancelled result =>
    rw [result]
    exact lasting_of_eq rfl rfl

theorem move_lasting {s t : State V} {a : Action V} (move : Move s a t) : Lasting s t := by
  cases move with
  | idle passive | ends _ passive | react _ _ passive _ => exact lasting_of_eq passive.callbacks passive.callback
  | post result | watch _ _ result | foreign _ _ result | leave _ result | made _ result | refused _ result
  | clear _ _ result | relay _ _ result | adopt _ _ result | returns _ _ result =>
    rw [result]
    exact lasting_of_eq rfl rfl
  | emit action running genuine notes result =>
    rename_i context v noted
    cases target : context.localValue .call with
    | some c =>
      rw [target] at result
      have lasting := delivered_lasting result
      rw [notes] at lasting
      exact ⟨lasting.callbacks, lasting.call, lasting.settled⟩
    | none =>
      rw [target] at result
      rw [result, notes]
      exact lasting_of_eq rfl rfl
  | wake _ _ result =>
    have lasting := delivered_lasting result
    exact ⟨lasting.callbacks, lasting.call, lasting.settled⟩
  | promises _ result =>
    rw [result]
    constructor
    · exact Nat.le_succ _
    · intro k made
      simp only [update_of_ne (Nat.ne_of_lt made)]
    · intro k made settled
      simpa only [update_of_ne (Nat.ne_of_lt made)] using settled
  | settles made pending passive =>
    rename_i k outcome
    have callbacks : t.callbacks = s.callbacks := passive.callbacks
    have callback : t.callback = (s.stageOf k .settling).callback := passive.callback
    apply lasting_stageOf callbacks callback
    right
    rw [pending]
    exact nofun
  | settle _ _ result =>
    rw [result]
    exact lasting_stageOf rfl rfl (.inl rfl)
  | closes _ _ passive _ result =>
    rw [result]
    exact lasting_of_eq passive.callbacks passive.callback

/-- A `consume` that has come to `close` awaits a promise of its own call, and
    one that has returned awaited it until it settled. -/
def Finished (s : State V) : Prop :=
  ∀ c k, (s.call c).phase.awaited = some (some k) →
    k < s.callbacks ∧ (s.callback k).call = c ∧ ((s.call c).phase.isOver = true → (s.callback k).stage = .settled)

theorem finished_of_eq {s t : State V} (finished : Finished s) (lasting : Lasting s t)
    (awaited : ∀ c, (t.call c).phase.awaited = (s.call c).phase.awaited)
    (isOver : ∀ c, (t.call c).phase.isOver = (s.call c).phase.isOver) : Finished t := by
  intro c k awaits
  rw [awaited c] at awaits
  obtain ⟨made, call, settled⟩ := finished c k awaits
  refine ⟨Nat.lt_of_lt_of_le made lasting.callbacks, (lasting.call k made).trans call, fun ended => ?_⟩
  rw [isOver c] at ended
  exact lasting.settled k made (settled ended)

theorem finished_update {s t : State V} (finished : Finished s) (lasting : Lasting s t) {c : Nat} {call : SubStreamCall}
    (result : t.call = update s.call c call)
    (own : ∀ k, call.phase.awaited = some (some k) → k < s.callbacks ∧ (s.callback k).call = c ∧
      (call.phase.isOver = true → (s.callback k).stage = .settled)) : Finished t := by
  intro c' k awaits
  rw [result] at awaits ⊢
  have found : k < s.callbacks ∧ (s.callback k).call = c' ∧
      ((update s.call c call c').phase.isOver = true → (s.callback k).stage = .settled) := by
    by_cases here : c' = c
    · rw [here, update_self] at awaits ⊢
      exact own k awaits
    · rw [update_of_ne here] at awaits ⊢
      exact finished c' k awaits
  obtain ⟨made, call', settled⟩ := found
  exact ⟨Nat.lt_of_lt_of_le made lasting.callbacks, (lasting.call k made).trans call',
    fun ended => lasting.settled k made (settled ended)⟩

theorem delivered_phase {s t : State V} {c e : Nat} (result : Delivered s c e t) (c' : Nat) :
    (t.call c').phase.awaited = (s.call c').phase.awaited ∧ (t.call c').phase.isOver = (s.call c').phase.isOver := by
  cases result with
  | dropped passive closed => exact ⟨passive.awaited c', passive.isOver c'⟩
  | waits active result | starts still free uncancelled result =>
    rw [result]
    exact ⟨rfl, rfl⟩

theorem move_finished {s t : State V} {a : Action V} (chained : Chained s) (finished : Finished s) (move : Move s a t) : Finished t := by
  have lasting := move_lasting move
  cases move with
  | idle passive | ends _ passive | react _ _ passive _ | settles _ _ passive =>
    exact finished_of_eq finished lasting passive.awaited passive.isOver
  | post result | watch _ _ result | foreign _ _ result | leave _ result | relay _ _ result | adopt _ _ result
  | settle _ _ result =>
    subst result
    exact finished_of_eq finished lasting (fun _ => rfl) (fun _ => rfl)
  | promises _ result | clear _ _ result =>
    subst result
    exact finished_update finished lasting rfl (finished _)
  | emit action running genuine notes result =>
    rename_i context v noted
    have noting : noted.call = s.call := by rw [notes]; rfl
    cases target : context.localValue .call with
    | some c =>
      rw [target] at result
      have phase := delivered_phase result
      rw [noting] at phase
      exact finished_of_eq finished lasting (fun c => (phase c).1) (fun c => (phase c).2)
    | none =>
      rw [target] at result
      subst result
      exact finished_of_eq finished lasting (fun c => by rw [noting]) (fun c => by rw [noting])
  | wake _ _ result =>
    have phase := delivered_phase result
    exact finished_of_eq finished lasting (fun c => (phase c).1) (fun c => (phase c).2)
  | made _ result | refused _ result =>
    subst result
    exact finished_update finished lasting rfl (by intro k awaits; cases awaits)
  | closes alone before passive shut result =>
    rename_i c outcome closing
    subst result
    have earlier := finished_of_eq finished (lasting_of_eq passive.callbacks passive.callback) passive.awaited passive.isOver
    have same := lasting_of_eq (s := closing) (t := closing.setCall c
      { closing.call c with phase := .closing (closing.call c).active outcome }) rfl rfl
    apply finished_update earlier same rfl
    intro k awaits
    simp only [Phase.awaited, Option.some.injEq] at awaits
    have active := passive.active c ▸ awaits
    rw [passive.callbacks, passive.callback]
    exact ⟨active_made chained active, (chained.active c k active).1, (by intro ends; cases ends)⟩
  | returns before settled result =>
    rename_i c awaited outcome
    subst result
    apply finished_update finished lasting rfl
    intro k awaits
    simp only [Phase.awaited, Option.some.injEq] at awaits
    obtain ⟨made, call, _⟩ := finished c k (by rw [before, awaits]; rfl)
    exact ⟨made, call, fun _ => settled k awaits⟩

/-- The callback may still run, or the handler of `finally` has yet to clear `#active`. -/
def Uncleared (s : State V) (k : Nat) : Prop :=
  (s.callback k).stage = .pending ∨ ∃ job ∈ s.jobs, early k job = true

def Frame.inside (c : Nat) : Frame → Bool
  | .callback c' _ => c' = c
  | .foreign => false

structure Serial (s : State V) : Prop where
  holds : ∀ k, Uncleared s k → (s.call (s.callback k).call).active = some k
  free : ∀ c, 0 < s.stack.countP (Frame.inside c) → (s.call c).active = none
  single : ∀ c, s.stack.countP (Frame.inside c) ≤ 1
  retired : ∀ c a, (s.call c).phase.awaited = some a → (s.call c).closed = true ∧
    s.stack.countP (Frame.inside c) = 0 ∧ ∀ k, Uncleared s k → (s.callback k).call = c → a = some k

/-- No emission goes to a call from inside one of its callbacks. -/
def Considerate (s : State V) (a : Action V) : Prop :=
  ∀ context value c, a = .emit context value → context.localValue .call = some c →
    s.stack.countP (Frame.inside c) = 0

theorem serial_of_eq {s t : State V} (serial : Serial s) (active : ∀ c, (t.call c).active = (s.call c).active)
    (uncleared : ∀ k, Uncleared t k → Uncleared s k ∧ (t.callback k).call = (s.callback k).call)
    (stack : ∀ c, t.stack.countP (Frame.inside c) ≤ s.stack.countP (Frame.inside c))
    (awaited : ∀ c, (t.call c).phase.awaited = (s.call c).phase.awaited)
    (closed : ∀ c, (s.call c).closed = true → (t.call c).closed = true) : Serial t where
  holds k open' := by
    obtain ⟨open', call⟩ := uncleared k open'
    rw [call, active]
    exact serial.holds k open'
  free c inside := by
    rw [active]
    exact serial.free c (Nat.lt_of_lt_of_le inside (stack c))
  single c := Nat.le_trans (stack c) (serial.single c)
  retired c a is := by
    rw [awaited] at is
    obtain ⟨shut, none, only⟩ := serial.retired c a is
    refine ⟨closed c shut, ?_, fun k open' call => ?_⟩
    · have less := stack c
      omega
    · obtain ⟨open', same⟩ := uncleared k open'
      exact only k open' (same ▸ call)

theorem passive_serial {s t : State V} (serial : Serial s) (passive : Passive s t) : Serial t := by
  apply serial_of_eq serial passive.active
  · intro k open'
    rw [Uncleared, passive.callback, passive.jobs] at open'
    exact ⟨open', by rw [passive.callback]⟩
  · intro c
    exact Nat.le_of_eq (by rw [passive.stack])
  · exact passive.awaited
  · exact passive.closed

theorem delivered_serial {s t : State V} (serial : Serial s) {c e : Nat} (outside : s.stack.countP (Frame.inside c) = 0)
    (result : Delivered s c e t) : Serial t := by
  cases result with
  | dropped passive closed => exact passive_serial serial passive
  | waits active result =>
    subst result
    exact serial_of_eq serial (fun _ => rfl) (fun _ open' => ⟨open', rfl⟩) (fun _ => Nat.le_refl _) (fun _ => rfl)
      (fun _ => id)
  | starts still free uncancelled result =>
    subst result
    constructor
    · exact serial.holds
    · intro c' inside
      by_cases same : c' = c
      · rw [same]
        exact free
      · apply serial.free c'
        simpa [Frame.inside, Ne.symm same] using inside
    · intro c'
      by_cases same : c' = c
      · simp [same, Frame.inside, outside]
      · simpa [Frame.inside, Ne.symm same] using serial.single c'
    · intro c' a is
      obtain ⟨shut, none, only⟩ := serial.retired c' a is
      have other : c' ≠ c := by
        rintro rfl
        rw [still] at shut
        cases shut
      refine ⟨shut, ?_, only⟩
      simpa [Frame.inside, Ne.symm other] using none

theorem uncleared_of_jobs {s t : State V} (callback : t.callback = s.callback)
    (jobs : ∀ k, ∀ job ∈ t.jobs, early k job = true → ∃ job ∈ s.jobs, early k job = true) (k : Nat)
    (open' : Uncleared t k) : Uncleared s k ∧ (t.callback k).call = (s.callback k).call := by
  rw [Uncleared, callback] at open'
  refine ⟨?_, by rw [callback]⟩
  rcases open' with pending | ⟨job, mem, is⟩
  · exact .inl pending
  · exact .inr (jobs k job mem is)

theorem early_of_tail {s : State V} {job : Job} {rest : List Job} (head : s.jobs = job :: rest) (k : Nat)
    (later : Job) (mem : later ∈ rest) (is : early k later = true) : ∃ job ∈ s.jobs, early k job = true :=
  ⟨later, head ▸ List.mem_cons_of_mem _ mem, is⟩

theorem inside_below {s : State V} {frame : Frame} {below : List Frame} (top : s.stack = frame :: below) (c : Nat) :
    below.countP (Frame.inside c) ≤ s.stack.countP (Frame.inside c) := by
  rw [top, List.countP_cons]
  omega

theorem uncleared_made {s : State V} (chained : Chained s) {k : Nat} (open' : Uncleared s k) : k < s.callbacks := by
  have unsettled : (s.callback k).stage ≠ .settled := by
    rcases open' with pending | ⟨job, mem, is⟩
    · rw [pending]
      exact nofun
    · rw [settling_of_job chained mem (ofCallback_of_early is)]
      exact nofun
  by_contra beyond
  exact unsettled (chained.unmade k (by omega))

theorem made_serial {s : State V} (chained : Chained s) (named : Named s) (serial : Serial s) (call : SubStreamCall)
    (log : List Event) (free : call.active = none) (shut : ∀ a, call.phase.awaited = some a → call.closed = true) :
    Serial { s.setCall s.calls call with calls := s.calls + 1, log := log } := by
  have unframed : s.stack.countP (Frame.inside s.calls) = 0 := by
    rw [List.countP_eq_zero]
    intro frame mem is
    cases frame with
    | foreign => cases is
    | callback c e =>
      simp only [Frame.inside, decide_eq_true_eq] at is
      have made := known_made (named c e (.inr (.inr (.inr (.inl mem)))))
      omega
  have unpromised : ∀ k, Uncleared s k → (s.callback k).call ≠ s.calls := by
    intro k open' same
    have made := known_made (named _ _ (.inr (.inr (.inr (.inr ⟨k, uncleared_made chained open', rfl, rfl⟩)))))
    omega
  constructor
  · intro k open'
    simp only [State.setCall, update_of_ne (unpromised k open')]
    exact serial.holds k open'
  · intro c inside
    by_cases same : c = s.calls
    · simp [State.setCall, same, free]
    · simp only [State.setCall, update_of_ne same]
      exact serial.free c inside
  · exact serial.single
  · intro c a is
    by_cases same : c = s.calls
    · subst same
      simp only [State.setCall, update_self] at is ⊢
      refine ⟨shut a is, unframed, fun k open' call => ?_⟩
      exact absurd call (unpromised k open')
    · simp only [State.setCall, update_of_ne same] at is ⊢
      exact serial.retired c a is

theorem promises_serial {s : State V} (serial : Serial s) {c e : Nat} {below : List Frame}
    (top : s.stack = .callback c e :: below) :
    Serial { s.setCall c { s.call c with active := some s.callbacks } with
             stack := below
             callbacks := s.callbacks + 1
             callback := update s.callback s.callbacks ⟨c, e, .pending⟩ } := by
  have one : s.stack.countP (Frame.inside c) = below.countP (Frame.inside c) + 1 := by
    simp [top, Frame.inside]
  have inside : below.countP (Frame.inside c) = 0 := by
    have most := serial.single c
    omega
  have free := serial.free c (by omega)
  have older : ∀ k, k ≠ s.callbacks →
      Uncleared { s.setCall c { s.call c with active := some s.callbacks } with
                  stack := below
                  callbacks := s.callbacks + 1
                  callback := update s.callback s.callbacks ⟨c, e, .pending⟩ } k → Uncleared s k := by
    intro k other open'
    simpa [Uncleared, State.setCall, update_of_ne other] using open'
  constructor
  · intro k open'
    by_cases new : k = s.callbacks
    · simp [State.setCall, new]
    · have holds := serial.holds k (older k new open')
      simp only [State.setCall, update_of_ne new]
      by_cases same : (s.callback k).call = c
      · rw [same, free] at holds
        cases holds
      · rwa [update_of_ne same]
  · intro c' within
    by_cases same : c' = c
    · rw [same] at within
      simp only at within
      omega
    · simp only [State.setCall, update_of_ne same]
      exact serial.free c' (Nat.lt_of_lt_of_le within (inside_below top c'))
  · exact fun c' => Nat.le_trans (inside_below top c') (serial.single c')
  · intro c' a is
    by_cases same : c' = c
    · subst same
      simp only [State.setCall, update_self] at is
      obtain ⟨_, none, _⟩ := serial.retired c' a is
      omega
    · simp only [State.setCall, update_of_ne same] at is ⊢
      obtain ⟨shut, none, only⟩ := serial.retired c' a is
      refine ⟨shut, ?_, fun k open' call => ?_⟩
      · have less := inside_below top c'
        omega
      · by_cases new : k = s.callbacks
        · rw [new, update_self] at call
          exact absurd call.symm same
        · rw [update_of_ne new] at call
          exact only k (older k new open') call

theorem clear_serial {s : State V} (chained : Chained s) (serial : Serial s) (alone : s.stack = []) {k : Nat}
    {fulfilled : Bool} {rest : List Job} (head : s.jobs = .clear k fulfilled :: rest) :
    Serial { s.setCall (s.callback k).call { s.call (s.callback k).call with active := none } with
             jobs := rest ++ [.relay k, .adopt k fulfilled] } := by
  have held := serial.holds k (.inr ⟨_, head ▸ List.mem_cons_self, by simp [early]⟩)
  have older : ∀ k', Uncleared { s.setCall (s.callback k).call { s.call (s.callback k).call with active := none } with
      jobs := rest ++ [.relay k, .adopt k fulfilled] } k' → Uncleared s k' ∧ k' ≠ k := by
    rintro k' (pending | ⟨job, mem, is⟩)
    · refine ⟨.inl pending, ?_⟩
      rintro rfl
      have settling := settling_of_job chained (head ▸ List.mem_cons_self) (k := k') (by simp [ofCallback])
      have pending : (s.callback k').stage = .pending := pending
      rw [settling] at pending
      cases pending
    · have behind : job ∈ rest := by
        simp only [List.mem_append, List.mem_cons, List.not_mem_nil, or_false] at mem
        rcases mem with mem | rfl | rfl
        · exact mem
        · cases is
        · cases is
      refine ⟨.inr (early_of_tail head k' job behind is), ?_⟩
      rintro rfl
      have none := none_behind chained head (k := k') (by simp [ofCallback])
      rw [List.countP_eq_zero] at none
      exact none job behind (ofCallback_of_early is)
  constructor
  · intro k' open'
    obtain ⟨open', other⟩ := older k' open'
    have holds := serial.holds k' open'
    have apart : (s.callback k').call ≠ (s.callback k).call := by
      intro same
      rw [same, held] at holds
      cases holds
      exact other rfl
    simp only [State.setCall, update_of_ne apart]
    exact holds
  · intro c inside
    simp [State.setCall, alone] at inside
  · intro c
    simp [State.setCall, alone]
  · intro c a is
    have is : (s.call c).phase.awaited = some a := by
      by_cases same : c = (s.callback k).call
      · simpa [State.setCall, same] using is
      · simpa [State.setCall, same] using is
    obtain ⟨shut, none, only⟩ := serial.retired c a is
    refine ⟨?_, none, fun k' open' call => only k' (older k' open').1 call⟩
    apply closed_update
    · exact id
    · exact shut

/-- `close` finds in `#active` the one callback that may still run. -/
theorem closes_serial {s : State V} (serial : Serial s) (alone : s.stack = []) (c : Nat) (outcome : Option Failure)
    (shut : (s.call c).closed = true) :
    Serial (s.setCall c { s.call c with phase := .closing (s.call c).active outcome }) := by
  constructor
  · intro k open'
    have holds := serial.holds k open'
    simp only [State.setCall]
    by_cases same : (s.callback k).call = c
    · rw [same, update_self]
      rwa [same] at holds
    · rwa [update_of_ne same]
  · intro c' inside
    simp [State.setCall, alone] at inside
  · intro c'
    simp [State.setCall, alone]
  · intro c' a is
    by_cases same : c' = c
    · subst same
      simp only [State.setCall, update_self, Phase.awaited, Option.some.injEq] at is ⊢
      refine ⟨shut, by simp [alone], fun k open' call => ?_⟩
      rw [← is, ← call]
      exact serial.holds k open'
    · simp only [State.setCall, update_of_ne same] at is ⊢
      exact serial.retired c' a is

theorem settling_uncleared {s : State V} {k : Nat} (outcome : Outcome) (pending : (s.callback k).stage = .pending)
    (k' : Nat) (open' : Uncleared ((s.stageOf k .settling).queue [.react k outcome]) k') :
    Uncleared s k' ∧ (((s.stageOf k .settling).queue [.react k outcome]).callback k').call = (s.callback k').call := by
  refine ⟨?_, stageOf_call s k k' .settling⟩
  simp only [Uncleared, State.queue, State.stageOf] at open'
  by_cases same : k' = k
  · rw [same]
    exact .inl pending
  · rw [update_of_ne same] at open'
    rcases open' with pending' | ⟨job, mem, is⟩
    · exact .inl pending'
    · rcases List.mem_append.mp mem with mem | mem
      · exact .inr ⟨job, mem, is⟩
      · cases List.mem_singleton.mp mem
        simp only [early, decide_eq_true_eq] at is
        exact absurd is.symm same

/-- Neither the settled promise nor what it wakes is uncleared. -/
theorem settle_uncleared {s : State V} (chained : Chained s) {k : Nat} {fulfilled : Bool} {rest : List Job}
    (head : s.jobs = .settle k fulfilled :: rest) (k' : Nat)
    (open' : Uncleared { s.stageOf k .settled with
      jobs := rest ++ ((s.reactions.filter fun r => r.1 = k).map Prod.snd).filter (State.passes fulfilled)
      reactions := s.reactions.filter fun r => r.1 ≠ k } k') :
    Uncleared s k' ∧ ((s.stageOf k .settled).callback k').call = (s.callback k').call := by
  refine ⟨?_, stageOf_call s k k' .settled⟩
  rcases open' with pending | ⟨job, mem, is⟩
  · simp only [State.stageOf] at pending
    by_cases same : k' = k
    · simp [same] at pending
    · rw [update_of_ne same] at pending
      exact .inl pending
  · rcases List.mem_append.mp mem with mem | mem
    · exact .inr (early_of_tail head k' job mem is)
    · obtain ⟨r, waiting, same⟩ := List.mem_map.mp (List.mem_of_mem_filter mem)
      have plain := chained.plain r.1 r.2 (List.mem_of_mem_filter waiting) k'
      rw [same, ofCallback_of_early is] at plain
      cases plain

theorem move_serial {s t : State V} {a : Action V} (named : Named s) (chained : Chained s) (serial : Serial s)
    (considerate : Considerate s a) (move : Move s a t) : Serial t := by
  cases move with
  | idle passive => exact passive_serial serial passive
  | post result =>
    subst result
    have plain := uncleared_of_jobs (s := s) (t := s.queue [.foreign]) rfl ?_
    · exact serial_of_eq serial (fun _ => rfl) plain (fun _ => Nat.le_refl _) (fun _ => rfl) (fun _ => id)
    · intro k job mem is
      rcases List.mem_append.mp mem with mem | mem
      · exact ⟨job, mem, is⟩
      · cases List.mem_singleton.mp mem
        cases is
  | watch _ _ result =>
    subst result
    exact serial_of_eq serial (fun _ => rfl) (fun _ open' => ⟨open', rfl⟩) (fun _ => Nat.le_refl _) (fun _ => rfl)
      (fun _ => id)
  | foreign alone head result =>
    subst result
    apply serial_of_eq serial
    · exact fun _ => rfl
    · exact uncleared_of_jobs rfl (early_of_tail head)
    · intro c
      simp [alone, Frame.inside]
    · exact fun _ => rfl
    · exact fun _ => id
  | leave top result =>
    subst result
    exact serial_of_eq serial (fun _ => rfl) (fun _ open' => ⟨open', rfl⟩) (inside_below top) (fun _ => rfl)
      (fun _ => id)
  | emit action running genuine notes result =>
    rename_i context v noted
    have noting : Serial noted := by
      rw [notes]
      exact serial_of_eq serial (fun _ => rfl) (fun _ open' => ⟨open', rfl⟩) (fun _ => Nat.le_refl _) (fun _ => rfl)
        (fun _ => id)
    cases target : context.localValue .call with
    | some c =>
      rw [target] at result
      apply delivered_serial noting _ result
      rw [notes]
      exact considerate context v c action target
    | none =>
      rw [target] at result
      rwa [result]
  | wake alone head result =>
    rename_i c e rest
    have tail : Serial { s with jobs := rest } :=
      serial_of_eq serial (fun _ => rfl) (uncleared_of_jobs rfl (early_of_tail head)) (fun _ => Nat.le_refl _)
        (fun _ => rfl) (fun _ => id)
    apply delivered_serial tail _ result
    simp [alone]
  | made _ result =>
    rw [result]
    exact made_serial chained named serial _ _ rfl nofun
  | refused _ result =>
    rw [result]
    exact made_serial chained named serial _ _ rfl (fun _ _ => rfl)
  | ends top passive =>
    rename_i c e below
    have popped : Serial { s with stack := below } :=
      serial_of_eq serial (fun _ => rfl) (fun _ open' => ⟨open', rfl⟩) (inside_below top) (fun _ => rfl) (fun _ => id)
    exact passive_serial popped passive
  | promises top result =>
    rw [result]
    exact promises_serial serial top
  | settles made pending passive =>
    rename_i k outcome
    have settling := settling_uncleared (s := s) (k := k) outcome pending
    have queued : Serial ((s.stageOf k .settling).queue [.react k outcome]) :=
      serial_of_eq serial (fun _ => rfl) settling (fun _ => Nat.le_refl _) (fun _ => rfl) (fun _ => id)
    exact passive_serial queued passive
  | react alone head passive failed =>
    rename_i k outcome fulfilled rest
    have onward : Serial { s with jobs := rest ++ [.clear k fulfilled] } := by
      apply serial_of_eq serial
      · exact fun _ => rfl
      · refine uncleared_of_jobs rfl ?_
        intro k' job mem is
        rcases List.mem_append.mp mem with mem | mem
        · exact early_of_tail head k' job mem is
        · cases List.mem_singleton.mp mem
          exact ⟨.react k outcome, head ▸ List.mem_cons_self, is⟩
      · exact fun _ => Nat.le_refl _
      · exact fun _ => rfl
      · exact fun _ => id
    exact passive_serial onward passive
  | clear alone head result =>
    rw [result]
    exact clear_serial chained serial alone head
  | relay _ head result =>
    rw [result]
    exact serial_of_eq serial (fun _ => rfl) (uncleared_of_jobs rfl (early_of_tail head)) (fun _ => Nat.le_refl _)
      (fun _ => rfl) (fun _ => id)
  | adopt _ head result =>
    rw [result]
    apply serial_of_eq serial
    · exact fun _ => rfl
    · refine uncleared_of_jobs rfl ?_
      intro k' job mem is
      rcases List.mem_append.mp mem with mem | mem
      · exact early_of_tail head k' job mem is
      · cases List.mem_singleton.mp mem
        cases is
    · exact fun _ => Nat.le_refl _
    · exact fun _ => rfl
    · exact fun _ => id
  | settle alone head result =>
    rename_i k fulfilled rest
    rw [result]
    exact serial_of_eq serial (fun _ => rfl) (settle_uncleared chained head) (fun _ => Nat.le_refl _) (fun _ => rfl)
      (fun _ => id)
  | closes alone _ passive shut result =>
    rw [result]
    exact closes_serial (passive_serial serial passive) (passive.stack.trans alone) _ _ shut
  | returns before _ result =>
    rename_i c awaited outcome settled
    rw [result]
    apply serial_of_eq serial
    · intro c'
      by_cases same : c' = c
      · simp [State.enter, State.setCall, same]
      · simp [State.enter, State.setCall, same]
    · exact fun _ open' => ⟨open', rfl⟩
    · exact fun _ => Nat.le_refl _
    · intro c'
      by_cases same : c' = c
      · simp [State.enter, State.setCall, same, before, Phase.awaited]
      · simp [State.enter, State.setCall, same]
    · apply closed_update
      exact id

def Frame.emissionOf (c : Nat) : Frame → Option Nat
  | .callback c' e => if c' = c then some e else none
  | .foreign => none

/-- The emissions whose callbacks of the call are running: on the stack, or with
    a promise that is pending. -/
def State.running (s : State V) (c : Nat) : List Nat :=
  s.stack.filterMap (Frame.emissionOf c) ++
    ((List.range s.callbacks).filter fun k => (s.callback k).call = c ∧ (s.callback k).stage = .pending).map fun k =>
      (s.callback k).emission

theorem frames_length (stack : List Frame) (c : Nat) :
    (stack.filterMap (Frame.emissionOf c)).length = stack.countP (Frame.inside c) := by
  induction stack with
  | nil => rfl
  | cons frame below ih =>
    cases frame with
    | foreign => simpa [Frame.inside, Frame.emissionOf, List.filterMap_cons] using ih
    | callback c' e =>
      by_cases same : c' = c
      · simpa [Frame.inside, Frame.emissionOf, same] using ih
      · simpa [Frame.inside, Frame.emissionOf, same] using ih

theorem pending_unique {s : State V} (serial : Serial s) (c : Nat) :
    ((List.range s.callbacks).filter fun k => (s.callback k).call = c ∧ (s.callback k).stage = .pending).length ≤ 1 ∧
      (0 < s.stack.countP (Frame.inside c) →
        (List.range s.callbacks).filter (fun k => (s.callback k).call = c ∧ (s.callback k).stage = .pending) = []) := by
  have active : ∀ k ∈ (List.range s.callbacks).filter fun k => (s.callback k).call = c ∧ (s.callback k).stage = .pending,
      (s.call c).active = some k := by
    intro k mem
    rw [List.mem_filter, decide_eq_true_eq] at mem
    obtain ⟨_, call, pending⟩ := mem
    rw [← call]
    exact serial.holds k (.inl pending)
  have distinct : ((List.range s.callbacks).filter fun k =>
      (s.callback k).call = c ∧ (s.callback k).stage = .pending).Nodup := List.nodup_range.filter _
  constructor
  · generalize (List.range s.callbacks).filter _ = pending at active distinct
    match pending with
    | [] => simp
    | [_] => simp
    | first :: second :: rest =>
      have one := active first (by simp)
      rw [active second (by simp)] at one
      cases one
      simp at distinct
  · intro inside
    apply List.eq_nil_iff_forall_not_mem.mpr
    intro k mem
    have is := active k mem
    rw [serial.free c inside] at is
    cases is

theorem running_le_one {s : State V} (serial : Serial s) (c : Nat) : (s.running c).length ≤ 1 := by
  obtain ⟨most, apart⟩ := pending_unique serial c
  have single := serial.single c
  rw [State.running, List.length_append, List.length_map, frames_length]
  by_cases inside : 0 < s.stack.countP (Frame.inside c)
  · rw [apart inside, List.length_nil]
    omega
  · omega

theorem none_running {s : State V} (serial : Serial s) (finished : Finished s) {c : Nat} {awaited : Option Nat}
    {outcome : Option Failure} (returned : (s.call c).phase = .returned awaited outcome) : s.running c = [] := by
  have is : (s.call c).phase.awaited = some awaited := by rw [returned]; rfl
  obtain ⟨_, outside, only⟩ := serial.retired c awaited is
  have unframed : s.stack.filterMap (Frame.emissionOf c) = [] := by
    apply List.eq_nil_of_length_eq_zero
    rw [frames_length, outside]
  have settled : (List.range s.callbacks).filter
      (fun k => (s.callback k).call = c ∧ (s.callback k).stage = .pending) = [] := by
    apply List.eq_nil_iff_forall_not_mem.mpr
    intro k mem
    rw [List.mem_filter, decide_eq_true_eq] at mem
    obtain ⟨_, call, pending⟩ := mem
    have awaits := only k (.inl pending) call
    have ended := (finished c k (by rw [is, awaits])).2.2 (by rw [returned]; rfl)
    rw [pending] at ended
    cases ended
  rw [State.running, unframed, settled]
  rfl

end SubStreams
