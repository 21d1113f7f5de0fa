import TsServiceLib.Source.GrpcListeners

/-!
The registry of the listeners. As long as a host is only made when nobody is
under way with an earlier one, every start and every stop has the registered
host, if there is one, so that an entry is taken out for the host it holds.
-/
namespace GrpcListeners
open Transitions Function

/-- The registered host is the only one that has sources or is not shut down, and
    the only one that a start or a stop has. -/
structure Registered (s : State) : Prop where
  known : ∀ {h}, s.registry = some h → h < s.nextHost
  entry : ∀ {h}, s.registry = some h → (s.hosts h).shutDown = true → (s.hosts h).closing = true
  belongs : ∀ {x h}, (s.sources x).host = some h →
    s.registry = some h ∧ x ∈ (s.hosts h).sources ∧ (s.hosts h).closing = false
  member : ∀ {x h}, x ∈ (s.hosts h).sources → (s.sources x).host = some h
  live : ∀ {h}, h < s.nextHost → (s.hosts h).shutDown = false → s.registry = some h
  carried : ∀ {h}, UnderWay s h → h < s.nextHost ∧ ∀ r, s.registry = some r → r = h
  closes : ∀ {id h}, (s.stops id).phase = .closing h → (s.hosts h).closing = true ∧ (s.hosts h).shutDown = true
  fresh : ∀ {h}, s.nextHost ≤ h → s.hosts h = {}

section UnderWay
variable {s t : State} {h : Nat}

theorem underWay_setStart {id : Nat} {phase : StartPhase} (under : UnderWay (s.setStart id phase) h) :
    phase.carries = some h ∨ UnderWay s h := by
  rcases under with ⟨other, carries⟩ | stop
  · by_cases same : other = id
    · subst same
      exact .inl (by simpa [State.setStart] using carries)
    · exact .inr (.inl ⟨other, by simpa [State.setStart, update_of_ne same] using carries⟩)
  · exact .inr (.inr stop)

theorem underWay_setStop {id : Nat} {phase : StopPhase} (under : UnderWay (s.setStop id phase) h) :
    phase.carries = some h ∨ UnderWay s h := by
  rcases under with start | ⟨other, carries⟩
  · exact .inr (.inl start)
  · by_cases same : other = id
    · subst same
      exact .inl (by simpa [State.setStop] using carries)
    · exact .inr (.inr ⟨other, by simpa [State.setStop, update_of_ne same] using carries⟩)

theorem underWay_beginStart {x : Nat} {phase : StartPhase} (under : UnderWay (s.beginStart x phase) h) :
    phase.carries = some h ∨ UnderWay s h := by
  rcases under with ⟨other, carries⟩ | stop
  · by_cases same : other = s.nextStart
    · subst same
      exact .inl (by simpa [State.beginStart] using carries)
    · exact .inr (.inl ⟨other, by simpa [State.beginStart, update_of_ne same] using carries⟩)
  · exact .inr (.inr stop)

end UnderWay

section Frames
variable {s t : State}

/-- A move that leaves alone the entry, the hosts and where the sources belong. The
    starts and the stops go on with the hosts that they had, or with the registered one. -/
theorem registered_frame (hs : Registered s) (registry : t.registry = s.registry) (nextHost : t.nextHost = s.nextHost)
    (hosts : ∀ h, (t.hosts h).sources = (s.hosts h).sources ∧ (t.hosts h).closing = (s.hosts h).closing ∧
      (t.hosts h).shutDown = (s.hosts h).shutDown)
    (fresh : ∀ {h}, s.nextHost ≤ h → t.hosts h = s.hosts h)
    (sources : ∀ x, (t.sources x).host = (s.sources x).host)
    (carried : ∀ {h}, UnderWay t h → UnderWay s h ∨ s.registry = some h)
    (closes : ∀ {id h}, (t.stops id).phase = .closing h → (s.hosts h).closing = true ∧ (s.hosts h).shutDown = true) :
    Registered t := by
  constructor
  · rw [registry, nextHost]
    exact hs.known
  · intro h entry
    rw [registry] at entry
    rw [(hosts h).2.1, (hosts h).2.2]
    exact hs.entry entry
  · intro x h host
    rw [sources] at host
    rw [registry, (hosts h).1, (hosts h).2.1]
    exact hs.belongs host
  · intro x h mem
    rw [(hosts h).1] at mem
    rw [sources]
    exact hs.member mem
  · intro h known live
    rw [nextHost] at known
    rw [(hosts h).2.2] at live
    rw [registry]
    exact hs.live known live
  · intro h under
    rw [registry, nextHost]
    rcases carried under with old | entry
    · exact hs.carried old
    · constructor
      · exact hs.known entry
      · intro r other
        exact Option.some.inj (other.symm.trans entry)
  · intro id h closing
    rw [(hosts h).2.1, (hosts h).2.2]
    exact closes closing
  · intro h unknown
    rw [nextHost] at unknown
    rw [fresh unknown]
    exact hs.fresh unknown

/-- Only the fields of a source that say nothing of its host have changed. -/
theorem registered_setSource (hs : Registered s) {x : Nat} {content : Source} (host : content.host = (s.sources x).host) :
    Registered (s.setSource x content) := by
  have belongs : ∀ y, ((s.setSource x content).sources y).host = (s.sources y).host := by
    intro y
    by_cases same : y = x
    · subst same
      simpa [State.setSource] using host
    · simp [State.setSource, update_of_ne same]
  exact registered_frame hs rfl rfl (fun _ => ⟨rfl, rfl, rfl⟩) (fun _ => rfl) belongs .inl hs.closes

theorem registered_setStart (hs : Registered s) {id : Nat} {phase : StartPhase}
    (carries : ∀ h, phase.carries = some h → UnderWay s h) : Registered (s.setStart id phase) := by
  have carried : ∀ {h}, UnderWay (s.setStart id phase) h → UnderWay s h ∨ s.registry = some h := by
    intro h under
    rcases underWay_setStart under with new | old
    · exact .inl (carries h new)
    · exact .inl old
  exact registered_frame hs rfl rfl (fun _ => ⟨rfl, rfl, rfl⟩) (fun _ => rfl) (fun _ => rfl) carried hs.closes

theorem registered_setStop (hs : Registered s) {id : Nat} {phase : StopPhase}
    (carries : ∀ h, phase.carries = some h → UnderWay s h ∨ s.registry = some h)
    (closes : ∀ h, phase = .closing h → (s.hosts h).closing = true ∧ (s.hosts h).shutDown = true) :
    Registered (s.setStop id phase) := by
  have carried : ∀ {h}, UnderWay (s.setStop id phase) h → UnderWay s h ∨ s.registry = some h := by
    intro h under
    rcases underWay_setStop under with new | old
    · exact carries h new
    · exact .inl old
  have closed : ∀ {other h}, ((s.setStop id phase).stops other).phase = .closing h →
      (s.hosts h).closing = true ∧ (s.hosts h).shutDown = true := by
    intro other h closing
    by_cases same : other = id
    · subst same
      exact closes h (by simpa [State.setStop] using closing)
    · exact hs.closes (by simpa [State.setStop, update_of_ne same] using closing)
  exact registered_frame hs rfl rfl (fun _ => ⟨rfl, rfl, rfl⟩) (fun _ => rfl) (fun _ => rfl) carried closed

theorem registered_beginStart (hs : Registered s) {x : Nat} {phase : StartPhase}
    (carries : ∀ h, phase.carries = some h → s.registry = some h) : Registered (s.beginStart x phase) := by
  have sources : ∀ y, ((s.beginStart x phase).sources y).host = (s.sources y).host := by
    intro y
    by_cases same : y = x
    · subst same
      simp [State.beginStart]
    · simp [State.beginStart, update_of_ne same]
  have carried : ∀ {h}, UnderWay (s.beginStart x phase) h → UnderWay s h ∨ s.registry = some h := by
    intro h under
    rcases underWay_beginStart under with new | old
    · exact .inr (carries h new)
    · exact .inl old
  exact registered_frame hs rfl rfl (fun _ => ⟨rfl, rfl, rfl⟩) (fun _ => rfl) sources carried hs.closes

end Frames

section Moves
variable {s : State} {x h : Nat}

theorem registered_move (hs : Registered s) (known : h < s.nextHost) {host : Option Nat} {sources : Finset Nat}
    (belongs : ∀ {y r}, (if y = x then host else (s.sources y).host) = some r →
      s.registry = some r ∧ y ∈ (if r = h then sources else (s.hosts r).sources) ∧ (s.hosts r).closing = false)
    (member : ∀ {y r}, y ∈ (if r = h then sources else (s.hosts r).sources) →
      (if y = x then host else (s.sources y).host) = some r) :
    Registered ((s.setSource x { s.sources x with host := host }).setHost h { s.hosts h with sources := sources }) := by
  have hostAt : ∀ y, (update s.sources x { s.sources x with host := host } y).host =
      if y = x then host else (s.sources y).host := by
    intro y
    by_cases same : y = x <;> simp [same]
  have sourcesAt : ∀ r, (update s.hosts h { s.hosts h with sources := sources } r).sources =
      if r = h then sources else (s.hosts r).sources := by
    intro r
    by_cases same : r = h <;> simp [same]
  have closing : ∀ r, (update s.hosts h { s.hosts h with sources := sources } r).closing = (s.hosts r).closing := by
    intro r
    by_cases same : r = h <;> simp [same]
  have shutDown : ∀ r, (update s.hosts h { s.hosts h with sources := sources } r).shutDown = (s.hosts r).shutDown := by
    intro r
    by_cases same : r = h <;> simp [same]
  constructor
  · exact hs.known
  · intro r entry
    simp only [State.setHost, State.setSource, closing, shutDown]
    exact hs.entry entry
  · intro y r
    simp only [State.setHost, State.setSource, hostAt, sourcesAt, closing]
    exact belongs
  · intro y r
    simp only [State.setHost, State.setSource, hostAt, sourcesAt]
    exact member
  · intro r
    simp only [State.setHost, State.setSource, shutDown]
    exact hs.live
  · exact hs.carried
  · intro id r
    simp only [State.setHost, State.setSource, closing, shutDown]
    exact hs.closes
  · intro r unknown
    have there : r ≠ h := by
      intro same
      subst same
      exact absurd known (Nat.not_lt.mpr unknown)
    simpa [State.setHost, State.setSource, update_of_ne there] using hs.fresh unknown

theorem registered_enter (hs : Registered s) (entry : s.registry = some h) (admits : (s.hosts h).closing = false)
    (free : (s.sources x).host = none) : Registered (s.enter x h) := by
  apply registered_move hs (hs.known entry)
  · intro y r host
    split at host
    · rename_i here
      cases host
      rw [if_pos rfl, here]
      exact ⟨entry, Finset.mem_insert_self x _, admits⟩
    · obtain ⟨registered, mem, running⟩ := hs.belongs host
      refine ⟨registered, ?_, running⟩
      split
      · rename_i there
        exact Finset.mem_insert_of_mem (there ▸ mem)
      · exact mem
  · intro y r mem
    split at mem
    · rename_i there
      rcases Finset.mem_insert.mp mem with here | before
      · rw [if_pos here, there]
      · split
        · rw [there]
        · rw [there]
          exact hs.member before
    · have host := hs.member mem
      split
      · rename_i here
        rw [here, free] at host
        cases host
      · exact host

theorem registered_exit (hs : Registered s) (known : h < s.nextHost) (here : ∀ r, (s.sources x).host = some r → r = h) :
    Registered (s.exit x h) := by
  apply registered_move hs known
  · intro y r host
    split at host
    · cases host
    · rename_i other
      obtain ⟨registered, mem, running⟩ := hs.belongs host
      refine ⟨registered, ?_, running⟩
      split
      · rename_i there
        exact Finset.mem_erase.mpr ⟨other, there ▸ mem⟩
      · exact mem
  · intro y r mem
    split at mem
    · rename_i there
      obtain ⟨other, before⟩ := Finset.mem_erase.mp mem
      rw [if_neg other, there]
      exact hs.member before
    · rename_i apart
      have host := hs.member mem
      split
      · rename_i same
        rw [same] at host
        exact absurd (here r host) apart
      · exact host

theorem registered_setAdmitting (hs : Registered s) {admitting : Bool} : Registered (s.setAdmitting x admitting) :=
  registered_setSource hs rfl

theorem registered_failStart (hs : Registered s) (known : h < s.nextHost) (here : ∀ r, (s.sources x).host = some r → r = h) :
    Registered (s.failStart x h) := by
  have refusing : Registered (s.setAdmitting x false) := registered_setAdmitting hs
  apply registered_exit refusing known
  intro r host
  exact here r (by simpa [State.setAdmitting, State.setSource] using host)

/-- A new host is registered when nobody has an earlier one. -/
theorem registered_createHost (hs : Registered s) (unregistered : s.registry = none) (apart : ∀ h, ¬UnderWay s h) :
    Registered s.createHost := by
  have free : ∀ y r, (s.sources y).host ≠ some r := by
    intro y r host
    have entry := (hs.belongs host).1
    rw [unregistered] at entry
    cases entry
  constructor
  · intro r entry
    have same : s.nextHost = r := Option.some.inj entry
    subst same
    exact Nat.lt_succ_self s.nextHost
  · intro r entry shut
    have same : s.nextHost = r := Option.some.inj entry
    subst same
    simp [State.createHost] at shut
  · intro y r host
    exact absurd host (free y r)
  · intro y r mem
    by_cases new : r = s.nextHost
    · subst new
      simp [State.createHost] at mem
    · have before : y ∈ (s.hosts r).sources := by simpa [State.createHost, update_of_ne new] using mem
      exact hs.member before
  · intro r known live
    by_cases new : r = s.nextHost
    · rw [new]
      rfl
    · have before : (s.hosts r).shutDown = false := by simpa [State.createHost, update_of_ne new] using live
      have older : r < s.nextHost := by
        have bound : r < s.nextHost + 1 := known
        omega
      have entry := hs.live older before
      rw [unregistered] at entry
      cases entry
  · intro r under
    exact absurd under (apart r)
  · intro id r closing
    have under : UnderWay s r := .inr ⟨id, congrArg StopPhase.carries closing⟩
    exact absurd under (apart r)
  · intro r unknown
    have bound : s.nextHost + 1 ≤ r := unknown
    have new : r ≠ s.nextHost := by omega
    simpa [State.createHost, update_of_ne new] using hs.fresh (h := r) (by omega)

theorem registered_joinHost (hs : Registered s) (entry : s.registry = some h) (free : (s.sources x).host = none)
    {registers : Bool} : Registered (s.joinHost x h registers) := by
  unfold State.joinHost
  split
  · apply registered_beginStart hs
    intro r carries
    cases carries
  · rename_i running
    have joined := registered_enter hs entry (by simpa using running) free
    split
    · apply registered_beginStart (registered_setAdmitting joined)
      intro r carries
      cases carries
      exact entry
    · have left := registered_failStart (x := x) joined (hs.known entry) (by
        intro r host
        have same : h = r := by simpa [State.enter, State.setHost, State.setSource] using host
        exact same.symm)
      apply registered_beginStart left
      intro r carries
      cases carries
      exact entry

theorem registered_unregister (hs : Registered s) {hosts : Nat → Host} (free : ∀ y r, (s.sources y).host ≠ some r)
    (same : ∀ r, (hosts r).sources = (s.hosts r).sources ∧ (hosts r).closing = (s.hosts r).closing)
    (shut : ∀ r, r < s.nextHost → (hosts r).shutDown = true) (fresh : ∀ r, s.nextHost ≤ r → hosts r = s.hosts r) :
    Registered { s with registry := none, hosts := hosts } := by
  constructor
  · intro r entry
    cases entry
  · intro r entry
    cases entry
  · intro y r host
    exact absurd host (free y r)
  · intro y r mem
    rw [(same r).1] at mem
    exact hs.member mem
  · intro r known live
    rw [shut r known] at live
    cases live
  · intro r under
    constructor
    · exact (hs.carried under).1
    · intro other entry
      cases entry
  · intro id r closing
    have under : UnderWay s r := .inr ⟨id, congrArg StopPhase.carries closing⟩
    rw [(same r).2]
    exact ⟨(hs.closes closing).1, shut r (hs.carried under).1⟩
  · intro r unknown
    exact (fresh r unknown).trans (hs.fresh unknown)

theorem belongs_carried (hs : Registered s) (under : UnderWay s h) {y r : Nat} (host : (s.sources y).host = some r) :
    r = h :=
  (hs.carried under).2 r (hs.belongs host).1

theorem registered_startFails (hs : Registered s) {t : State} {id : Nat} (next : s.startFails id = some t) :
    Registered t := by
  unfold State.startFails at next
  split at next
  · rename_i h phase
    have under : UnderWay s h := .inl ⟨id, congrArg StartPhase.carries phase⟩
    split at next
    · cases next
    · split at next
      · rename_i empty
        cases next
        have free : ∀ y r, (s.sources y).host ≠ some r := by
          intro y r host
          have same := belongs_carried hs under host
          subst same
          have mem := (hs.belongs host).2.1
          rw [empty] at mem
          exact Finset.notMem_empty y mem
        have gone : Registered { s with
            registry := none, hosts := update s.hosts h { s.hosts h with shutDown := true } } := by
          apply registered_unregister hs free
          · intro r
            by_cases there : r = h
            · subst there
              simp
            · simp [update_of_ne there]
          · intro r known
            by_cases there : r = h
            · subst there
              simp
            · rw [update_of_ne there]
              cases live : (s.hosts r).shutDown with
              | true => rfl
              | false => exact absurd ((hs.carried under).2 r (hs.live known live)) there
          · intro r unknown
            have there : r ≠ h := by
              have bound := (hs.carried under).1
              omega
            exact update_of_ne there ..
        apply registered_setStart gone
        intro r carries
        cases carries
      · cases next
        apply registered_setStart hs
        intro r carries
        cases carries
  · cases next

theorem registered_stopClosed (hs : Registered s) {t : State} {id : Nat} (next : s.stopClosed id = some t) :
    Registered t := by
  unfold State.stopClosed at next
  split at next
  · rename_i h phase
    cases next
    have under : UnderWay s h := .inr ⟨id, congrArg StopPhase.carries phase⟩
    have free : ∀ y r, (s.sources y).host ≠ some r := by
      intro y r host
      have same := belongs_carried hs under host
      subst same
      have running := (hs.belongs host).2.2
      rw [(hs.closes phase).1] at running
      cases running
    have shut : ∀ r, r < s.nextHost → (s.hosts r).shutDown = true := by
      intro r known
      cases live : (s.hosts r).shutDown with
      | true => rfl
      | false =>
        have same := (hs.carried under).2 r (hs.live known live)
        subst same
        rw [(hs.closes phase).2] at live
        cases live
    have gone : Registered { s with registry := none } :=
      registered_unregister hs free (fun _ => ⟨rfl, rfl⟩) shut (fun _ _ => rfl)
    apply registered_setStop gone
    · intro r carries
      cases carries
    · intro r closing
      cases closing
  · cases next

theorem registered_startReady (hs : Registered s) {t : State} {id : Nat} (next : s.startReady id = some t) :
    Registered t := by
  unfold State.startReady at next
  split at next
  · rename_i h phase
    have under : UnderWay s h := .inl ⟨id, congrArg StartPhase.carries phase⟩
    split at next
    · cases next
    · cases next
      apply registered_setStart hs
      intro r carries
      cases carries
    · cases next
      have left := registered_failStart (x := (s.starts id).source) hs (hs.carried under).1
        (fun r host => belongs_carried hs under host)
      apply registered_setStart left
      intro r carries
      cases carries
      exact under
  · cases next

theorem registered_close (hs : Registered s) (known : h < s.nextHost) (only : ∀ r, s.registry = some r → r = h)
    (empty : (s.hosts h).sources = ∅) :
    Registered (s.setHost h { s.hosts h with closing := true, shutDown := true }) := by
  have away : ∀ {y r}, (s.sources y).host = some r → False := by
    intro y r host
    obtain ⟨entry, mem, -⟩ := hs.belongs host
    rw [only r entry, empty] at mem
    exact Finset.notMem_empty y mem
  constructor
  · exact hs.known
  · intro r entry shut
    rw [only r entry]
    simp [State.setHost]
  · intro y r host
    exact absurd host away
  · intro y r mem
    apply hs.member
    by_cases there : r = h
    · subst there
      simpa [State.setHost] using mem
    · simpa [State.setHost, update_of_ne there] using mem
  · intro r below live
    by_cases there : r = h
    · subst there
      simp [State.setHost] at live
    · exact hs.live below (by simpa [State.setHost, update_of_ne there] using live)
  · exact hs.carried
  · intro id r closing
    by_cases there : r = h
    · subst there
      simp [State.setHost]
    · simpa [State.setHost, update_of_ne there] using hs.closes closing
  · intro r unknown
    have there : r ≠ h := by
      have bound : s.nextHost ≤ r := unknown
      omega
    simpa [State.setHost, update_of_ne there] using hs.fresh unknown

/-- A source leaves its host, and the last one closes it. -/
theorem registered_leave (hs : Registered s) {id : Nat} (known : h < s.nextHost) (only : ∀ r, s.registry = some r → r = h)
    (under : UnderWay s h ∨ s.registry = some h) : Registered (s.leave id h) := by
  have left := registered_exit (x := (s.stops id).source) hs known (fun r host => only r (hs.belongs host).1)
  unfold State.leave
  simp only
  split
  · apply registered_setStop left
    · intro r carries
      cases carries
    · intro r closing
      cases closing
  · rename_i empty
    have closed := registered_close left known only (not_not.mp empty)
    apply registered_setStop closed
    · intro r carries
      cases carries
      exact under
    · intro r closing
      cases closing
      simp [State.setHost]

theorem registered_stopBegins (hs : Registered s) {t : State} {id : Nat} (next : s.stopBegins id = some t) :
    Registered t := by
  unfold State.stopBegins at next
  split at next
  · split at next
    · simp only at next
      split at next
      · cases next
        apply registered_setStop hs
        · intro r carries
          cases carries
        · intro r closing
          cases closing
      · rename_i h host
        have entry := (hs.belongs host).1
        have refusing : Registered (s.setAdmitting (s.stops id).source false) := registered_setAdmitting hs
        split at next
        · cases next
          apply registered_setStop refusing
          · intro r carries
            cases carries
            exact .inr entry
          · intro r closing
            cases closing
        · cases next
          exact registered_leave refusing (hs.known entry) (fun r other => Option.some.inj (other.symm.trans entry))
            (.inr entry)
    · cases next
  · cases next

theorem registered_stopDrained (hs : Registered s) {t : State} {id : Nat} (next : s.stopDrained id = some t) :
    Registered t := by
  unfold State.stopDrained at next
  split at next
  · rename_i h phase
    cases next
    have under : UnderWay s h := .inr ⟨id, congrArg StopPhase.carries phase⟩
    have idle : Registered (s.setSource (s.stops id).source { s.sources (s.stops id).source with calls := 0 }) :=
      registered_setSource hs rfl
    exact registered_leave idle (hs.carried under).1 (hs.carried under).2 (.inl under)
  · cases next

theorem registered_start (hs : Registered s) {registers : Bool} (apart : Apart s (.start x registers)) :
    Registered (s.start x registers) := by
  unfold State.start
  split
  · exact hs
  · rename_i idle
    have free : (s.sources x).host = none := by
      by_contra taken
      exact idle (.inl taken)
    split
    · rename_i h entry
      exact registered_joinHost hs entry free
    · rename_i unregistered
      exact registered_joinHost (registered_createHost hs unregistered (apart unregistered)) rfl free

theorem registered_setReady (hs : Registered s) (known : h < s.nextHost) {ready : Ready} :
    Registered (s.setHost h { s.hosts h with ready := ready }) := by
  have same : ∀ r, ((s.setHost h { s.hosts h with ready := ready }).hosts r).sources = (s.hosts r).sources ∧
      ((s.setHost h { s.hosts h with ready := ready }).hosts r).closing = (s.hosts r).closing ∧
      ((s.setHost h { s.hosts h with ready := ready }).hosts r).shutDown = (s.hosts r).shutDown := by
    intro r
    by_cases there : r = h
    · subst there
      simp [State.setHost]
    · simp [State.setHost, update_of_ne there]
  have fresh : ∀ {r}, s.nextHost ≤ r → (s.setHost h { s.hosts h with ready := ready }).hosts r = s.hosts r := by
    intro r unknown
    have there : r ≠ h := by omega
    exact update_of_ne there ..
  exact registered_frame hs rfl rfl same fresh (fun _ => rfl) .inl hs.closes

theorem registered_binds (hs : Registered s) {t : State} {bound : Bool} (next : s.binds h bound = some t) :
    Registered t := by
  unfold State.binds at next
  split at next
  · rename_i may
    cases next
    exact registered_setReady hs may.1
  · cases next

theorem registered_startReturns (hs : Registered s) {t : State} (next : s.startReturns x = some t) : Registered t := by
  unfold State.startReturns at next
  split at next
  · split at next
    · cases next
      exact registered_setSource hs rfl
    · cases next
  · cases next

theorem registered_stops (hs : Registered s) {stops : Nat → Stop} (nextStop : Nat)
    (phases : ∀ id, (stops id).phase = (s.stops id).phase ∨ ∃ start, (stops id).phase = .waiting start) :
    Registered { s with stops := stops, nextStop := nextStop } := by
  have carried : ∀ {r}, UnderWay { s with stops := stops, nextStop := nextStop } r → UnderWay s r ∨ s.registry = some r := by
    intro r under
    rcases under with start | ⟨id, carries⟩
    · exact .inl (.inl start)
    · rcases phases id with same | ⟨start, new⟩
      · exact .inl (.inr ⟨id, by rw [← same]; exact carries⟩)
      · rw [new] at carries
        cases carries
  have closed : ∀ {id r}, (stops id).phase = .closing r → (s.hosts r).closing = true ∧ (s.hosts r).shutDown = true := by
    intro id r closing
    rcases phases id with same | ⟨start, new⟩
    · rw [same] at closing
      exact hs.closes closing
    · rw [new] at closing
      cases closing
  exact registered_frame (t := { s with stops := stops, nextStop := nextStop }) hs rfl rfl (fun _ => ⟨rfl, rfl, rfl⟩)
    (fun _ => rfl) (fun _ => rfl) carried closed

theorem registered_stop (hs : Registered s) : Registered (s.stop x) := by
  unfold State.stop
  split
  · rename_i id _
    apply registered_stops hs s.nextStop
    intro other
    by_cases same : other = id
    · subst same
      simp
    · simp [update_of_ne same]
  · have stopping : Registered (s.setSource x { s.sources x with stopping := some s.nextStop }) :=
      registered_setSource hs rfl
    apply registered_stops stopping
    intro other
    by_cases same : other = s.nextStop
    · subst same
      simp
    · simp [State.setSource, update_of_ne same]

theorem registered_stopReturns (hs : Registered s) {t : State} {id : Nat} (next : s.stopReturns id = some t) :
    Registered t := by
  unfold State.stopReturns at next
  split at next
  · cases next
    have returned : Registered (s.setSource (s.stops id).source { s.sources (s.stops id).source with stopping := none }) :=
      registered_setSource hs rfl
    apply registered_stops returned s.nextStop
    intro other
    by_cases same : other = id
    · subst same
      simp [State.setSource]
    · simp [State.setSource, update_of_ne same]
  · cases next

theorem registered_calls (hs : Registered s) {t : State} {a : Action} (call : a = .callBegins x ∨ a = .callEnds x)
    (next : step s a = some t) : Registered t := by
  rcases call with rfl | rfl
  · simp only [step, State.callBegins] at next
    split at next
    · cases next
      exact registered_setSource hs rfl
    · cases next
  · simp only [step, State.callEnds] at next
    split at next
    · cases next
      exact registered_setSource hs rfl
    · cases next

end Moves

theorem registered_step {s t : State} {a : Action} (hs : Registered s) (apart : Apart s a) (next : step s a = some t) :
    Registered t := by
  cases a with
  | start x registers =>
    cases next
    exact registered_start hs apart
  | binds h bound => exact registered_binds hs next
  | startReady id => exact registered_startReady hs next
  | startFails id => exact registered_startFails hs next
  | startReturns x => exact registered_startReturns hs next
  | stop x =>
    cases next
    exact registered_stop hs
  | stopBegins id => exact registered_stopBegins hs next
  | stopDrained id => exact registered_stopDrained hs next
  | stopClosed id => exact registered_stopClosed hs next
  | stopReturns id => exact registered_stopReturns hs next
  | callBegins x => exact registered_calls hs (.inl rfl) next
  | callEnds x => exact registered_calls hs (.inr rfl) next

theorem registered_initial : Registered {} := by
  constructor
  · intro h entry
    cases entry
  · intro h entry
    cases entry
  · intro x h host
    cases host
  · intro x h mem
    exact absurd mem (Finset.notMem_empty x)
  · intro h known
    exact absurd known (Nat.not_lt_zero h)
  · intro h under
    rcases under with ⟨id, carries⟩ | ⟨id, carries⟩
    · cases carries
    · cases carries
  · intro id h closing
    cases closing
  · intro h unknown
    rfl

theorem registered_reachable {s : State} (reach : ReachableWith Apart s) : Registered s :=
  steps_invariant Registered (fun _ _ _ hs apart next => registered_step hs apart next) reach registered_initial

theorem joinHost_registry (s : State) (x h : Nat) (registers : Bool) : (s.joinHost x h registers).registry = s.registry := by
  unfold State.joinHost
  split
  · rfl
  · split
    · rfl
    · rfl

theorem leave_registry (s : State) (id h : Nat) : (s.leave id h).registry = s.registry := by
  unfold State.leave
  simp only
  split
  · rfl
  · rfl

theorem entry_removed {s t : State} {a : Action} {h : Nat} (next : step s a = some t) (before : s.registry = some h)
    (after : t.registry ≠ some h) :
    ∃ id r, a = .startFails id ∧ (s.starts id).phase = .failing r ∨ a = .stopClosed id ∧ (s.stops id).phase = .closing r := by
  cases a with
  | start x registers =>
    cases next
    refine absurd ?_ after
    unfold State.start
    split
    · exact before
    · split
      · rw [joinHost_registry]
        exact before
      · rename_i unregistered
        rw [before] at unregistered
        cases unregistered
  | binds h bound =>
    simp only [step, State.binds] at next
    split at next
    · cases next
      exact absurd before after
    · cases next
  | startReady id =>
    simp only [step, State.startReady] at next
    split at next
    · split at next
      · cases next
      · cases next
        exact absurd before after
      · cases next
        exact absurd before after
    · cases next
  | startFails id =>
    simp only [step, State.startFails] at next
    split at next
    · rename_i r phase
      exact ⟨id, r, .inl ⟨rfl, phase⟩⟩
    · cases next
  | startReturns x =>
    simp only [step, State.startReturns] at next
    split at next
    · split at next
      · cases next
        exact absurd before after
      · cases next
    · cases next
  | stop x =>
    cases next
    refine absurd ?_ after
    unfold State.stop
    split
    · exact before
    · exact before
  | stopBegins id =>
    simp only [step, State.stopBegins] at next
    split at next
    · split at next
      · split at next
        · cases next
          exact absurd before after
        · split at next
          · cases next
            exact absurd before after
          · cases next
            rw [leave_registry] at after
            exact absurd before after
      · cases next
    · cases next
  | stopDrained id =>
    simp only [step, State.stopDrained] at next
    split at next
    · cases next
      rw [leave_registry] at after
      exact absurd before after
    · cases next
  | stopClosed id =>
    simp only [step, State.stopClosed] at next
    split at next
    · rename_i r phase
      exact ⟨id, r, .inr ⟨rfl, phase⟩⟩
    · cases next
  | stopReturns id =>
    simp only [step, State.stopReturns] at next
    split at next
    · cases next
      exact absurd before after
    · cases next
  | callBegins x =>
    simp only [step, State.callBegins] at next
    split at next
    · cases next
      exact absurd before after
    · cases next
  | callEnds x =>
    simp only [step, State.callEnds] at next
    split at next
    · cases next
      exact absurd before after
    · cases next

/- Where a host is only made when nobody is under way with an earlier one, a server
   that is shut down has no source, a source that has started has the registered
   host, only one host is not shut down, and an entry is taken out by whoever has
   the host that it holds. -/
theorem registry_sound {s : State} (reach : ReachableWith Apart s) :
    (∀ h, (s.hosts h).shutDown = true → (s.hosts h).sources = ∅ ∧ ∀ x, (s.sources x).host ≠ some h) ∧
    (∀ x h, (s.sources x).host = some h → s.registry = some h ∧ x ∈ (s.hosts h).sources) ∧
    (∀ h r, h < s.nextHost → r < s.nextHost → (s.hosts h).shutDown = false → (s.hosts r).shutDown = false → h = r) ∧
    ∀ a t h, step s a = some t → s.registry = some h → t.registry ≠ some h →
      ∃ id, a = .startFails id ∧ (s.starts id).phase = .failing h ∨
        a = .stopClosed id ∧ (s.stops id).phase = .closing h := by
  have hs := registered_reachable reach
  have unused : ∀ x h, (s.hosts h).shutDown = true → (s.sources x).host ≠ some h := by
    intro x h shut host
    obtain ⟨entry, -, running⟩ := hs.belongs host
    rw [hs.entry entry shut] at running
    cases running
  refine ⟨?_, ?_, ?_, ?_⟩
  · intro h shut
    constructor
    · apply Finset.eq_empty_of_forall_notMem
      intro x mem
      exact unused x h shut (hs.member mem)
    · intro x
      exact unused x h shut
  · intro x h host
    obtain ⟨entry, mem, -⟩ := hs.belongs host
    exact ⟨entry, mem⟩
  · intro h r first second alive living
    exact Option.some.inj ((hs.live first alive).symm.trans (hs.live second living))
  · intro a t h next before after
    obtain ⟨id, r, fails | closed⟩ := entry_removed next before after
    · have under : UnderWay s r := .inl ⟨id, congrArg StartPhase.carries fails.2⟩
      have same := (hs.carried under).2 h before
      subst same
      exact ⟨id, .inl fails⟩
    · have under : UnderWay s r := .inr ⟨id, congrArg StopPhase.carries closed.2⟩
      have same := (hs.carried under).2 h before
      subst same
      exact ⟨id, .inr closed⟩

/-- A check that admits a start only while a host is registered. -/
def joins (s : State) : Action → Bool
  | .start _ _ => s.registry.isSome
  | _ => true

theorem joins_apart (s : State) (a : Action) (passed : joins s a = true) : Apart s a := by
  cases a with
  | start x registers =>
    intro unregistered
    simp [joins, unregistered] at passed
  | _ => trivial

/-- Two sources share a host, and the first of them stops. -/
theorem registry_sound_shared :
    ∃ s, ReachableWith Apart s ∧ (s.sources 0).host = none ∧ (s.sources 1).host = some 0 ∧ s.registry = some 0 ∧
      1 ∈ (s.hosts 0).sources := by
  have first : Apart {} (.start 0 true) := by
    intro _ h under
    rcases under with ⟨id, carries⟩ | ⟨id, carries⟩
    · cases carries
    · cases carries
  have begun : ReachableWith Apart (State.start {} 0 true) := steps_single first rfl
  have shared : execWhere step joins (State.start {} 0 true) [.start 1 true, .binds 0 true, .startReady 0,
      .startReady 1, .startReturns 0, .startReturns 1, .stop 0, .stopBegins 0] = some _ := rfl
  have reach := steps_trans begun (execWhere_steps joins_apart shared)
  obtain ⟨entry, mem⟩ := (registry_sound reach).2.1 1 0 rfl
  exact ⟨_, reach, rfl, rfl, entry, mem⟩

/-- A start that fails hands the entry over while a stop still closes its host: the
    stop then takes out the entry of a newer host, and a third host is made beside it. -/
theorem newer_host_unregistered :
    ∃ s, ReachableWith Any s ∧ (s.sources 2).host = some 1 ∧ (s.sources 3).host = some 2 ∧ s.registry = some 2 ∧
      (s.hosts 1).shutDown = false ∧ (s.hosts 2).shutDown = false := by
  have run : exec step {} [.start 0 true, .binds 0 true, .startReady 0, .startReturns 0, .start 1 false, .stop 0,
      .stopBegins 0, .startFails 1, .start 2 true, .stopClosed 0, .start 3 true] = some _ := rfl
  exact ⟨_, exec_steps run, rfl, rfl, rfl, rfl, rfl⟩

end GrpcListeners
