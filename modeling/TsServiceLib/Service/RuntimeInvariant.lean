import TsServiceLib.Service.ServiceRuntime
import TsServiceLib.Service.StopLedger

/-!
The invariant of the service runtime. While the start is pending no stop has
been asked for; once it is over the list of started components only gets
shorter, so what a stop attempt has cleared stays cleared, whoever else is
stopping. Every rest of an attempt knows which components may still be
started, and every stop that has been asked for was permitted at its time.
-/
namespace Services
open Transitions Ledger

/-- What may be left when a group is entered. -/
def StopPhase.left : StopPhase → RuntimeComponent → Bool
  | .admission, _ => true
  | .producers, c => !admissionCategory c.category || c.stopAdmission
  | .managed, c | .resources, c => !admissionCategory c.category
  | .sinks, c => !admissionCategory c.category && !resourceCategory c.category
  | .connectors, c => !admissionCategory c.category && !resourceCategory c.category &&
      !decide (c.category = .dataSink)

/-- The components a sequence has still to stop, the awaited one first. -/
def Sequence.remaining (s : Sequence) : List Nat := (s.current.map Prod.fst).toList ++ s.rest

namespace Runtime

/-- `c'` has completed its start later than `c`. -/
def StartedLater (l : Ledger) (c c' : Nat) : Prop := [c, c'].Sublist l.completed

/-- All components still started are as `p` says. -/
def Leaves (l : Ledger) (p : RuntimeComponent → Bool) : Prop :=
  ∀ c ∈ l.started, ∀ component, l.components[c]? = some component → p component = true

def isTelemetry (c : RuntimeComponent) : Bool := decide (c.category = .telemetry)

/-- When the stop of a component may be begun. -/
def Permitted (l : Ledger) (startFailed drained : Bool) (c : Nat) : Prop :=
  if startFailed then ∀ c', StartedLater l c c' → c' ∉ l.started
  else ∀ component, l.components[c]? = some component →
    (component.category = .dataSink → Leaves l (StopPhase.left .sinks) ∧ drained = true) ∧
    (component.category = .managedDataConnector → Leaves l (StopPhase.left .connectors)) ∧
    (component.category = .telemetry → Leaves l isTelemetry)

structure Sequenced (l : Ledger) (s : Sequence) : Prop where
  order : s.remaining.Sublist l.completed.reverse
  covers : ∀ c ∈ l.started, c ∈ s.remaining
  serves : ∀ c ref, s.current = some (c, ref) → l.Serves ref c false
  ends : s.current = none → s.rest = []

structure Grouped (l : Ledger) (phase : StopPhase) (members : List (Nat × Ref)) : Prop where
  left : Leaves l phase.left
  covers : ∀ c ∈ l.started, (l.components[c]?).any phase.takes = true → c ∈ members.map Prod.fst
  serves : ∀ member ∈ members, l.Serves member.2 member.1 (l.only member.1 phase.admissionOnly)

/-- No start is pending and none can begin. -/
def Over (r : Runtime) : Prop := r.startupPending = false ∧ r.state ≠ .created

/-- After a failed start a graceful stop has nothing to do. -/
def Graceful (r : Runtime) : Prop := Over r ∧ (r.startFailed = true → r.ledger.started = [])

def AttemptOk (r : Runtime) : AttemptState → Prop
  | .awaitingStartup | .rejected => True
  | .rolling s => Over r ∧ r.startFailed = true ∧ Sequenced r.ledger s
  | .group phase members => Graceful r ∧ Grouped r.ledger phase members ∧
      (phase = .sinks ∨ phase = .connectors → r.drained = true)
  | .draining graceful _ => Graceful r ∧
      (if graceful then Leaves r.ledger (StopPhase.left .sinks) else r.ledger.started = [])
  | .telemetry s => Graceful r ∧ Leaves r.ledger isTelemetry ∧ Sequenced r.ledger s ∧ r.drained = true
  | .fulfilled => Over r ∧ r.ledger.started = []

def CallOk (r : Runtime) (call : Call) : Prop :=
  match call.status with
  | .waiting => call.attempt < r.attempts
  | .fulfilled => Over r ∧ r.ledger.started = []
  | .rejected => True

/-- The components a start has still to begin, in its current category. -/
def planned (items : List StartItem) : List Nat :=
  items.filterMap fun item => match item with
    | .component c => some c
    | .admission _ => none

structure Plan (l : Ledger) (items : List StartItem) (categories : List Category) : Prop where
  nodup : (planned items).Nodup
  fresh : ∀ c ∈ planned items, c ∉ l.completed
  listed : ∀ c ∈ planned items, c < l.components.length
  later : ∀ c, c ∈ l.completed ∨ c ∈ planned items → ∀ component, l.components[c]? = some component →
    component.category ∉ categories
  categories : categories.Nodup

/-- No stop has been asked for and the start has not failed. -/
def Quiet (r : Runtime) : Prop :=
  r.ledger.operations = 0 ∧ r.ledger.joins = 0 ∧ r.startFailed = false ∧ r.rollbackPending = false

def StartupOk (r : Runtime) : Prop :=
  match r.startup with
  | .idle => r.startupPending = false ∧ r.ledger.completed = [] ∧ r.startFailed = false ∧
      r.rollbackPending = false
  | .building categories => r.startupPending = true ∧ Quiet r ∧ r.ledger.completed = [] ∧ categories.Nodup
  | .awaiting item items categories =>
      r.startupPending = true ∧ Quiet r ∧ Plan r.ledger (item :: items) categories
  | .rolling s => r.startupPending = true ∧ r.startFailed = true ∧ r.rollbackPending = true ∧
      Sequenced r.ledger s
  | .fulfilled => r.startupPending = false ∧ r.startFailed = false ∧ r.rollbackPending = false
  | .rejected => r.startupPending = false ∧ r.startFailed = true ∧
      (r.rollbackPending = false → r.ledger.started = [])

/-- What holds of the runtime at every rest, but for the attempt `skipped`. -/
structure GovernedBut (skipped : Nat → Prop) (r : Runtime) : Prop where
  kept : Kept (Permitted r.ledger r.startFailed r.drained) r.ledger
  startup : StartupOk r
  attempts : ∀ k, k < r.attempts → ¬skipped k → AttemptOk r (r.attempt k).state
  calls : ∀ n, n < r.calls → CallOk r (r.call n)
  published : ∀ k, r.stopPromise = some k → k < r.attempts
  created : r.state = .created → r.startup = .idle
  registered : ∀ c ∈ r.ledger.completed, c < r.ledger.components.length

def Governed (r : Runtime) : Prop := GovernedBut (fun _ => False) r

/-- How the runtime goes on once its start is over. -/
structure Onward (r r' : Runtime) : Prop where
  ledger : Grown r.ledger r'.ledger
  ended : Over r'
  failed : r'.startFailed = r.startFailed
  drained : r.drained = true → r'.drained = true

section Monotone
variable {l l' : Ledger} {r r' : Runtime}

theorem leaves_grown (grown : Grown l l') {p : RuntimeComponent → Bool} (leaves : Leaves l p) :
    Leaves l' p := by
  intro c mem component found
  rw [grown.components] at found
  exact leaves c (grown.started.subset mem) component found

theorem started_empty (grown : Grown l l') (empty : l.started = []) : l'.started = [] := by
  have sublist := grown.started
  rw [empty] at sublist
  exact List.sublist_nil.mp sublist

theorem permitted_grown (grown : Grown l l') {failed drained drained' : Bool}
    (kept : drained = true → drained' = true) {c : Nat} (permitted : Permitted l failed drained c) :
    Permitted l' failed drained' c := by
  unfold Permitted at *
  split
  · rename_i startFailed
    rw [if_pos startFailed] at permitted
    intro c' later mem
    unfold StartedLater at later
    rw [grown.completed] at later
    exact permitted c' later (grown.started.subset mem)
  · rename_i graceful
    rw [if_neg graceful] at permitted
    intro component found
    rw [grown.components] at found
    obtain ⟨sink, managed, telemetry⟩ := permitted component found
    refine ⟨?_, ?_, ?_⟩
    · intro category
      exact ⟨leaves_grown grown (sink category).1, kept (sink category).2⟩
    · intro category
      exact leaves_grown grown (managed category)
    · intro category
      exact leaves_grown grown (telemetry category)

theorem sequenced_grown (grown : Grown l l') {s : Sequence} (sequenced : Sequenced l s) :
    Sequenced l' s where
  order := by
    rw [grown.completed]
    exact sequenced.order
  covers c mem := sequenced.covers c (grown.started.subset mem)
  serves c ref current := grown_serves grown (sequenced.serves c ref current)
  ends := sequenced.ends

theorem grouped_grown (grown : Grown l l') {phase : StopPhase} {members : List (Nat × Ref)}
    (grouped : Grouped l phase members) : Grouped l' phase members where
  left := leaves_grown grown grouped.left
  covers c mem taken := by
    rw [grown.components] at taken
    exact grouped.covers c (grown.started.subset mem) taken
  serves member mem := by
    rw [grown_only grown]
    exact grown_serves grown (grouped.serves member mem)

theorem graceful_onward (onward : Onward r r') (graceful : Graceful r) : Graceful r' := by
  refine ⟨onward.ended, ?_⟩
  intro failed
  rw [onward.failed] at failed
  exact started_empty onward.ledger (graceful.2 failed)

/-- What an attempt knows survives whatever the runtime does once the start is
    over; before that it knows nothing. -/
theorem attemptOk_onward (onward : Over r → Onward r r') {s : AttemptState} (ok : AttemptOk r s) :
    AttemptOk r' s := by
  cases s with
  | awaitingStartup => trivial
  | rejected => trivial
  | rolling s =>
    obtain ⟨ended, failed, sequenced⟩ := ok
    have next := onward ended
    exact ⟨next.ended, next.failed.trans failed, sequenced_grown next.ledger sequenced⟩
  | group phase members =>
    obtain ⟨graceful, grouped, drained⟩ := ok
    have next := onward graceful.1
    exact ⟨graceful_onward next graceful, grouped_grown next.ledger grouped,
      fun late => next.drained (drained late)⟩
  | draining graceful drain =>
    obtain ⟨calm, left⟩ := ok
    have next := onward calm.1
    refine ⟨graceful_onward next calm, ?_⟩
    cases graceful with
    | true => exact leaves_grown next.ledger left
    | false => exact started_empty next.ledger left
  | telemetry s =>
    obtain ⟨graceful, leaves, sequenced, drained⟩ := ok
    have next := onward graceful.1
    exact ⟨graceful_onward next graceful, leaves_grown next.ledger leaves,
      sequenced_grown next.ledger sequenced, next.drained drained⟩
  | fulfilled =>
    obtain ⟨ended, empty⟩ := ok
    have next := onward ended
    exact ⟨next.ended, started_empty next.ledger empty⟩

theorem callOk_onward (onward : Over r → Onward r r') (more : r.attempts ≤ r'.attempts) {call : Call}
    (ok : CallOk r call) : CallOk r' call := by
  unfold CallOk at *
  split
  · rename_i waiting
    rw [waiting] at ok
    exact Nat.lt_of_lt_of_le ok more
  · rename_i fulfilled
    rw [fulfilled] at ok
    have next := onward ok.1
    exact ⟨next.ended, started_empty next.ledger ok.2⟩
  · trivial

theorem startupOk_onward (ended : Over r) (onward : Onward r r') (same : r'.startup = r.startup)
    (rolling : r'.rollbackPending = false → r.rollbackPending = false ∨ r'.ledger.started = [])
    (cleared : r.rollbackPending = false → r'.rollbackPending = false) (ok : StartupOk r) :
    StartupOk r' := by
  have pending := ended.1
  have settled := onward.ended.1
  unfold StartupOk at *
  rw [same]
  split
  · rename_i idle
    rw [idle] at ok
    obtain ⟨_, completed, failed, rollback⟩ := ok
    exact ⟨settled, onward.ledger.completed.trans completed, onward.failed.trans failed, cleared rollback⟩
  · rename_i building
    rw [building, pending] at ok
    cases ok.1
  · rename_i awaiting
    rw [awaiting, pending] at ok
    cases ok.1
  · rename_i rolling
    rw [rolling, pending] at ok
    cases ok.1
  · rename_i fulfilled
    rw [fulfilled] at ok
    exact ⟨settled, onward.failed.trans ok.2.1, cleared ok.2.2⟩
  · rename_i rejected
    rw [rejected] at ok
    refine ⟨settled, onward.failed.trans ok.2.1, ?_⟩
    intro done
    rcases rolling done with before | empty
    · exact started_empty onward.ledger (ok.2.2 before)
    · exact empty

end Monotone

section Sequences
variable {allowed : Nat → Prop} {l : Ledger}

/-- Two elements of a list without repetitions are in one order only. -/
theorem pair_order {xs : List Nat} (nodup : xs.Nodup) {a b : Nat} (first : [a, b].Sublist xs)
    (second : [b, a].Sublist xs) : False := by
  induction xs with
  | nil => cases first
  | cons x xs ih =>
    obtain ⟨fresh, rest⟩ := List.nodup_cons.mp nodup
    rcases List.cons_sublist_cons'.mp first with inner | ⟨rfl, tail⟩
    · rcases List.cons_sublist_cons'.mp second with inner' | ⟨rfl, tail'⟩
      · exact ih rest inner inner'
      · exact fresh (inner.subset (by simp))
    · rcases List.cons_sublist_cons'.mp second with inner' | ⟨rfl, tail'⟩
      · exact fresh (inner'.subset (by simp))
      · exact fresh (tail.subset (by simp))

/-- The next component of a rollback: everything started later has stopped. -/
theorem rollback_permitted (nodup : l.completed.Nodup) {c : Nat} {rest : List Nat} {drained : Bool}
    (order : (c :: rest).Sublist l.completed.reverse) (covers : ∀ c' ∈ l.started, c' ∈ c :: rest) :
    Permitted l true drained c := by
  intro c' later mem
  have backwards : [c', c].Sublist l.completed.reverse := by
    have reversed := List.reverse_sublist.mpr later
    simpa using reversed
  have distinct : (l.completed.reverse).Nodup := List.nodup_reverse.mpr nodup
  rcases List.mem_cons.mp (covers c' mem) with same | behind
  · subst same
    have twice := backwards.nodup distinct
    simp at twice
  · have forwards : [c, c'].Sublist l.completed.reverse :=
      (List.Sublist.cons_cons c (List.singleton_sublist.mpr behind)).trans order
    exact pair_order distinct backwards forwards

theorem beginSequence_sequenced (kept : Kept allowed l) (context : ContextRef) {xs : List Nat}
    (order : xs.Sublist l.completed.reverse) (covers : ∀ c ∈ l.started, c ∈ xs)
    (permits : ∀ c rest, xs = c :: rest → allowed c) :
    Kept allowed (beginSequence l context xs).2 ∧ Grown l (beginSequence l context xs).2 ∧
      Sequenced (beginSequence l context xs).2 (beginSequence l context xs).1 := by
  cases xs with
  | nil =>
    refine ⟨kept, grown_refl l, order, covers, ?_, fun _ => rfl⟩
    intro c ref current
    cases current
  | cons c rest =>
    have completed : c ∈ l.completed := List.mem_reverse.mp (order.subset List.mem_cons_self)
    have permitted : l.only c false = false → allowed c := fun _ => permits c rest rfl
    obtain ⟨kept', grown, serves⟩ := stopComponent_kept kept context completed permitted
    refine ⟨kept', grown, ?_, ?_, ?_, ?_⟩
    · change (c :: rest).Sublist (l.stopComponent c context false).2.completed.reverse
      rw [grown.completed]
      exact order
    · intro c' mem
      exact covers c' (grown.started.subset mem)
    · intro c' ref current
      cases current
      exact serves
    · intro none
      cases none

/-- What a sequence knows when its awaited stop has been fulfilled. -/
theorem sequenced_advance (kept : Kept allowed l) {s : Sequence} (sequenced : Sequenced l s) {c : Nat}
    {ref : Ref} (current : s.current = some (c, ref)) (outcome : l.outcome ref = some none) :
    s.rest.Sublist l.completed.reverse ∧ ∀ c' ∈ l.started, c' ∈ s.rest := by
  have stopped := fulfilled_stopped kept (sequenced.serves c ref current) outcome
  have shape : s.remaining = c :: s.rest := by
    simp [Sequence.remaining, current]
  constructor
  · have order := sequenced.order
    rw [shape] at order
    exact (List.sublist_cons_self c s.rest).trans order
  · intro c' mem
    have covered := sequenced.covers c' mem
    rw [shape] at covered
    rcases List.mem_cons.mp covered with same | later
    · exact absurd mem (stopped_not_started kept (same ▸ stopped))
    · exact later

theorem resume_done (kept : Kept allowed l) {x : Contexts} {context : ContextRef} {s : Sequence}
    {seen : Bool} (sequenced : Sequenced l s)
    (done : resumeSequence l x context s seen = .done) : l.started = [] := by
  unfold resumeSequence at done
  split at done
  · rename_i vacant
    apply List.eq_nil_iff_forall_not_mem.mpr
    intro c mem
    have covered := sequenced.covers c mem
    rw [Sequence.remaining, vacant, sequenced.ends vacant] at covered
    cases covered
  · rename_i c ref current
    split at done
    · split at done
      · cases done
      · cases done
      · rename_i outcome
        split at done
        · rename_i last
          apply List.eq_nil_iff_forall_not_mem.mpr
          intro c' mem
          have covered := (sequenced_advance kept sequenced current outcome).2 c' mem
          rw [last] at covered
          cases covered
        · cases done
    · split at done
      · cases done
      · cases done

theorem resume_next (kept : Kept allowed l) {x : Contexts} {context : ContextRef} {s s' : Sequence}
    {seen : Bool} {l' : Ledger} (sequenced : Sequenced l s)
    (permits : ∀ c rest, (c :: rest).Sublist l.completed.reverse → (∀ c' ∈ l.started, c' ∈ c :: rest) →
      allowed c) (next : resumeSequence l x context s seen = .next s' l') :
    Kept allowed l' ∧ Grown l l' ∧ Sequenced l' s' := by
  unfold resumeSequence at next
  split at next
  · cases next
  · rename_i c ref current
    split at next
    · split at next
      · cases next
      · cases next
      · rename_i outcome
        obtain ⟨order, covers⟩ := sequenced_advance kept sequenced current outcome
        split at next
        · cases next
        · rename_i head rest shape
          rw [shape] at order covers
          cases next
          apply beginSequence_sequenced kept context order covers
          intro c' rest' same
          cases same
          exact permits head rest order covers
    · split at next
      · cases next
      · cases next

end Sequences

section Groups
variable {allowed : Nat → Prop} {l : Ledger}

theorem stopAll_grouped (context : ContextRef) (admission : Bool) {xs : List Nat} (kept : Kept allowed l)
    (completed : ∀ c ∈ xs, c ∈ l.completed)
    (permits : ∀ c ∈ xs, l.only c admission = false → allowed c) :
    Kept allowed (stopAll context admission xs l).2 ∧ Grown l (stopAll context admission xs l).2 ∧
      (stopAll context admission xs l).1.map Prod.fst = xs ∧
      ∀ member ∈ (stopAll context admission xs l).1,
        (stopAll context admission xs l).2.Serves member.2 member.1 (l.only member.1 admission) := by
  induction xs generalizing l with
  | nil => exact ⟨kept, grown_refl l, rfl, by simp [stopAll]⟩
  | cons c rest ih =>
    obtain ⟨kept', grown, serves⟩ := stopComponent_kept kept context (completed c List.mem_cons_self)
      (permits c List.mem_cons_self)
    have later_completed : ∀ c' ∈ rest, c' ∈ (l.stopComponent c context admission).2.completed := by
      intro c' mem
      rw [grown.completed]
      exact completed c' (List.mem_cons_of_mem _ mem)
    have later_permits : ∀ c' ∈ rest,
        (l.stopComponent c context admission).2.only c' admission = false → allowed c' := by
      intro c' mem full
      rw [grown_only grown] at full
      exact permits c' (List.mem_cons_of_mem _ mem) full
    obtain ⟨kept'', grown', names, others⟩ := ih kept' later_completed later_permits
    refine ⟨kept'', grown_trans grown grown', ?_, ?_⟩
    · simp only [stopAll, List.map_cons, names]
    · intro member mem
      rcases List.mem_cons.mp mem with same | other
      · subst same
        exact grown_serves grown' serves
      · have served := others member other
        rw [grown_only grown] at served
        exact served

theorem phase_permitted {phase : StopPhase} {failed drained : Bool} {c : Nat}
    (graceful : failed = true → l.started = []) (left : Leaves l phase.left)
    (late : phase = .sinks ∨ phase = .connectors → drained = true)
    (taken : (l.components[c]?).any phase.takes = true) (full : l.only c phase.admissionOnly = false) :
    Permitted l failed drained c := by
  unfold Permitted
  split
  · rename_i startFailed
    intro c' _ mem
    rw [graceful startFailed] at mem
    cases mem
  · intro component found
    rw [found, Option.any_some] at taken
    have has : l.hasStopAdmission c = component.stopAdmission := by
      simp [hasStopAdmission, found]
    cases phase with
    | admission => cases h : component.category <;> simp_all [StopPhase.takes, admissionCategory]
    | producers => cases h : component.category <;> simp_all [StopPhase.takes, admissionCategory]
    | managed =>
      have managed : component.category = .managedDataConnector := by simpa [StopPhase.takes] using taken
      rw [only, has, component.managed managed] at full
      cases full
    | resources => cases h : component.category <;> simp_all [StopPhase.takes, resourceCategory]
    | sinks =>
      have sink : component.category = .dataSink := by simpa [StopPhase.takes] using taken
      simp only [sink]
      exact ⟨fun _ => ⟨left, late (.inl rfl)⟩, by simp, by simp⟩
    | connectors =>
      have managed : component.category = .managedDataConnector := by simpa [StopPhase.takes] using taken
      simp only [managed]
      exact ⟨by simp, fun _ => left, by simp⟩

theorem group_cleared (kept : Kept allowed l) {phase : StopPhase} {members : List (Nat × Ref)}
    (grouped : Grouped l phase members) (fulfilled : allFulfilled l members = true) {c : Nat}
    (mem : c ∈ l.started) (taken : (l.components[c]?).any phase.takes = true) :
    l.only c phase.admissionOnly = true := by
  obtain ⟨member, there, same⟩ := List.mem_map.mp (grouped.covers c mem taken)
  have outcome : l.outcome member.2 = some none := by
    have all := List.all_eq_true.mp fulfilled member there
    simpa using all
  have serves := grouped.serves member there
  rw [same] at serves
  cases full : l.only c phase.admissionOnly with
  | true => rfl
  | false =>
    rw [full] at serves
    exact absurd mem (stopped_not_started kept (fulfilled_stopped kept serves outcome))

def StopPhase.following : StopPhase → Option StopPhase
  | .admission => some .producers
  | .producers => some .managed
  | .managed => some .resources
  | .resources => some .sinks
  | .sinks => some .connectors
  | .connectors => none

theorem group_leaves (kept : Kept allowed l) {phase : StopPhase} {members : List (Nat × Ref)}
    (grouped : Grouped l phase members) (fulfilled : allFulfilled l members = true) :
    match StopPhase.following phase with
    | some next => Leaves l next.left
    | none => Leaves l isTelemetry := by
  have gone : ∀ c ∈ l.started, ∀ component, l.components[c]? = some component →
      phase.takes component = true → (phase.admissionOnly && component.stopAdmission) = true := by
    intro c mem component found taken
    have cleared := group_cleared kept grouped fulfilled mem (by rw [found, Option.any_some]; exact taken)
    simpa [only, hasStopAdmission, found] using cleared
  cases phase with
  | admission =>
    intro c mem component found
    have cleared := gone c mem component found
    simp only [StopPhase.takes, StopPhase.admissionOnly, StopPhase.left] at *
    cases h : admissionCategory component.category <;> simp_all
  | producers =>
    intro c mem component found
    have cleared := gone c mem component found
    have before := grouped.left c mem component found
    simp only [StopPhase.takes, StopPhase.admissionOnly, StopPhase.left] at *
    cases h : admissionCategory component.category <;> simp_all
  | managed => exact grouped.left
  | resources =>
    intro c mem component found
    have cleared := gone c mem component found
    have before := grouped.left c mem component found
    simp only [StopPhase.takes, StopPhase.admissionOnly, StopPhase.left] at *
    cases h : resourceCategory component.category <;> simp_all
  | sinks =>
    intro c mem component found
    have cleared := gone c mem component found
    have before := grouped.left c mem component found
    simp only [StopPhase.takes, StopPhase.admissionOnly, StopPhase.left] at *
    simp_all
  | connectors =>
    intro c mem component found
    have cleared := gone c mem component found
    have before := grouped.left c mem component found
    simp only [StopPhase.takes, StopPhase.admissionOnly, StopPhase.left, isTelemetry] at *
    cases h : component.category <;> simp_all [admissionCategory, resourceCategory]

end Groups

end Runtime

end Services
