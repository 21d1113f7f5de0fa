import TsServiceLib.Temporal.ConnectorStart

/-!
The calls of a Temporal connector, its connection attempts and its fields. The
call that made an attempt and the attempt know each other, and an attempt is
closed only by the start that took it, or by a stop that found it held. While a
start has not taken a connection the connector is not started; once it has, the
flag is set and nothing but a stop takes it back.
-/
namespace TemporalConnectors.Lifecycle
open Transitions Function ConfigValues ConfigParsers RuntimeConfigs OrderedMaps TemporalIdentities

def Stage.isEnsuring : Stage → Bool
  | .ensuring _ => true
  | _ => false

def Stage.attempt : Stage → Option Nat
  | .connecting c => some c
  | .cancelled c => c
  | .ensuring c => some c
  | _ => none

def Phase.attempt : Phase → Option Nat
  | .connecting c => some c
  | .ensuring c _ _ => some c
  | .rollingBack c _ => some c
  | .closing c _ => some c
  | .fulfilled c => some c
  | .rejected stage _ => stage.attempt
  | _ => none

/-- The connection that the start has taken. -/
def Phase.taken : Phase → Option Nat
  | .ensuring c _ _ => some c
  | .rollingBack c _ => some c
  | .closing c _ => some c
  | .fulfilled c => some c
  | .rejected (.ensuring c) _ => some c
  | _ => none

/-- The connection that the start has closed again. -/
def Phase.closed : Phase → Option Nat
  | .closing c _ => some c
  | .rejected (.ensuring c) _ => some c
  | _ => none

def Phase.links (p : Phase) : Option Nat × Option Nat × Option Nat := (p.attempt, p.taken, p.closed)

/-- The start has not taken a connection yet. -/
def Phase.opening : Phase → Bool
  | .loadingTls _ => true
  | .connecting _ => true
  | _ => false

/-- The start has taken a connection and has not come to its end. -/
def Phase.holding : Phase → Bool
  | .ensuring _ _ _ => true
  | .rollingBack _ _ => true
  | .closing _ _ => true
  | _ => false

theorem attempt_of_taken {p : Phase} {c : Nat} (taken : p.taken = some c) : p.attempt = some c := by
  cases p with
  | rejected stage error => cases stage <;> simp_all [Phase.taken, Phase.attempt, Stage.attempt]
  | _ => simp_all [Phase.taken, Phase.attempt]

theorem attempt_of_closed {p : Phase} {c : Nat} (closed : p.closed = some c) : p.attempt = some c := by
  cases p with
  | rejected stage error => cases stage <;> simp_all [Phase.closed, Phase.attempt, Stage.attempt]
  | _ => simp_all [Phase.closed, Phase.attempt]

/-- A call that goes on without taking a connection, closing one or letting go of one. -/
structure Continues (p q : Phase) : Prop where
  links : q.links = p.links
  unsettled : p.settled = false
  opening : q.opening = true → p.opening = true
  holding : q.holding = true → p.holding = true
  failed : ∀ stage error, q = .rejected stage error → p.opening = true ∧ stage.isEnsuring = false

/-- Where the loop leaves a start that has taken the connection. -/
inductive Looped (c : Nat) : Phase → Prop where
  | throws (error : Thrown) : Looped c (.rollingBack c error)
  | finishes : Looped c (.fulfilled c)
  | waits (position : Nat) (awaited : Ensuring) : Looped c (.ensuring c position awaited)

section Sound
variable {H : Type}

/-- Attempts and calls, and which connections have been closed. -/
structure Linked (s : State H) : Prop where
  made : ∀ c < s.attempted, (s.attempts c).call < s.count ∧ (s.calls (s.attempts c).call).phase.attempt = some c
  own : ∀ i c, (s.calls i).phase.attempt = some c → c < s.attempted ∧ (s.attempts c).call = i
  taken : ∀ i c, (s.calls i).phase.taken = some c → (s.attempts c).status = .established
  closed : ∀ i c, (s.calls i).phase.closed = some c → 0 < (s.attempts c).closes
  unclosed : ∀ c < s.attempted, 0 < (s.attempts c).closes → (s.calls (s.attempts c).call).phase.taken = some c
  held : ∀ c, s.connection = some c → c < s.attempted ∧ (s.calls (s.attempts c).call).phase.taken = some c

/-- What the fields of the connector say of the call that is under way, or was the last. -/
structure Kept (s : State H) : Prop where
  unheld : s.connector.started = false → s.connection = none ∧ s.client = none
  opening : ∀ i, (s.calls i).phase.opening = true → s.connector.started = false
  holding : ∀ i, (s.calls i).phase.holding = true → s.connector.started = true
  last : ∀ i, (s.calls i).phase.settled = false → s.count = i + 1
  fresh : ∀ i, s.count ≤ i → (s.calls i).phase = .returned
  failed : ∀ i stage error, s.count = i + 1 → (s.calls i).phase = .rejected stage error →
    s.connector.started = stage.isEnsuring

variable {t : CaseTables} {s u v : State H} {i j c : Nat} {p : Phase}

theorem phase_setPhase (s : State H) (i j : Nat) (p : Phase) :
    ((s.setPhase i p).calls j).phase = if j = i then p else (s.calls j).phase := by
  by_cases same : j = i
  · subst same
    simp [State.setPhase]
  · simp [State.setPhase, same]

theorem phase_addCall (s : State H) (aborted : Bool) (p : Phase) (j : Nat) :
    ((s.addCall aborted p).calls j).phase = if j = s.count then p else (s.calls j).phase := by
  by_cases same : j = s.count
  · subst same
    simp [State.addCall]
  · simp [State.addCall, same]

theorem loop_looped (s : State H) (i c position : Nat) : ∃ p, Looped c p ∧ loop t s i c position = s.setPhase i p := by
  unfold loop
  split
  · exact ⟨_, .throws _, rfl⟩
  · exact ⟨_, .finishes, rfl⟩
  · exact ⟨_, .waits _ _, rfl⟩

theorem looped_links (looped : Looped c p) : p.links = (some c, some c, none) := by
  cases looped <;> rfl

/-- The steps that change neither the attempts nor which call has which. -/
theorem linked_same (h : Linked s) (attempted : u.attempted = s.attempted) (attempts : u.attempts = s.attempts)
    (count : s.count ≤ u.count) (connection : u.connection = s.connection ∨ u.connection = none)
    (links : ∀ i, (u.calls i).phase.links = (s.calls i).phase.links) : Linked u := by
  have attempt (i : Nat) : (u.calls i).phase.attempt = (s.calls i).phase.attempt := congrArg Prod.fst (links i)
  have taken (i : Nat) : (u.calls i).phase.taken = (s.calls i).phase.taken := congrArg (·.2.1) (links i)
  have closed (i : Nat) : (u.calls i).phase.closed = (s.calls i).phase.closed := congrArg (·.2.2) (links i)
  constructor
  · intro c known
    rw [attempted] at known
    obtain ⟨called, own⟩ := h.made c known
    rw [attempts, attempt]
    exact ⟨by omega, own⟩
  · intro i c own
    rw [attempt] at own
    rw [attempted, attempts]
    exact h.own i c own
  · intro i c own
    rw [taken] at own
    rw [attempts]
    exact h.taken i c own
  · intro i c own
    rw [closed] at own
    rw [attempts]
    exact h.closed i c own
  · intro c known closes
    rw [attempted] at known
    rw [attempts] at closes ⊢
    rw [taken]
    exact h.unclosed c known closes
  · intro c held
    rcases connection with same | gone
    · rw [same] at held
      rw [attempted, attempts, taken]
      exact h.held c held
    · rw [gone] at held
      cases held

theorem kept_same (h : Kept s) (started : u.connector.started = s.connector.started) (connection : u.connection = s.connection)
    (client : u.client = s.client) (count : u.count = s.count) (phases : ∀ i, (u.calls i).phase = (s.calls i).phase) :
    Kept u := by
  constructor
  · rw [started, connection, client]
    exact h.unheld
  · intro i
    rw [phases, started]
    exact h.opening i
  · intro i
    rw [phases, started]
    exact h.holding i
  · intro i
    rw [phases, count]
    exact h.last i
  · intro i
    rw [phases, count]
    exact h.fresh i
  · intro i stage error
    rw [phases, count, started]
    exact h.failed i stage error

theorem linked_setPhase (h : Linked s) (continues : Continues (s.calls i).phase p) : Linked (s.setPhase i p) := by
  apply linked_same h
  · rfl
  · rfl
  · exact Nat.le_refl _
  · exact .inl rfl
  · intro j
    rw [phase_setPhase]
    split
    · rename_i same
      rw [same]
      exact continues.links
    · rfl

/-- A call that does not come to a connection while it is made. -/
theorem linked_addCall (h : Linked s) (fresh : (s.calls s.count).phase = .returned) {aborted : Bool}
    (links : p.links = (none, none, none)) : Linked (s.addCall aborted p) := by
  apply linked_same h
  · rfl
  · rfl
  · exact Nat.le_succ _
  · exact .inl rfl
  · intro j
    rw [phase_addCall]
    split
    · rename_i same
      rw [same, fresh, links]
      rfl
    · rfl

theorem kept_addCall (h : Kept s) (idle : s.Idle) {aborted : Bool} (opening : p.opening = true → s.connector.started = false)
    (holding : p.holding = false)
    (failed : ∀ stage error, p = .rejected stage error → s.connector.started = stage.isEnsuring) : Kept (s.addCall aborted p) := by
  constructor
  · exact h.unheld
  · intro j
    rw [phase_addCall]
    split
    · exact opening
    · exact h.opening j
  · intro j holds
    rw [phase_addCall] at holds
    split at holds
    · rw [holding] at holds
      cases holds
    · exact h.holding j holds
  · intro j unsettled
    rw [phase_addCall] at unsettled
    split at unsettled
    · rename_i same
      rw [same]
      rfl
    · rw [idle j] at unsettled
      cases unsettled
  · intro j beyond
    have above : s.count + 1 ≤ j := beyond
    rw [phase_addCall, if_neg (by omega)]
    exact h.fresh j (by omega)
  · intro j stage error here rejected
    have same : j = s.count := by
      have : s.count + 1 = j + 1 := here
      omega
    rw [phase_addCall, if_pos same] at rejected
    exact failed stage error rejected

theorem attempts_update (s : State H) (c d : Nat) (content : Attempt) :
    update s.attempts c content d = if d = c then content else s.attempts d := by
  by_cases same : d = c
  · subst same
    simp
  · simp [same]

theorem linked_settle (h : Linked s) (pending : (s.attempts c).status = .connecting) (status : AttemptStatus) :
    Linked { s with attempts := update s.attempts c { s.attempts c with status } } := by
  have call (d : Nat) : (update s.attempts c { s.attempts c with status } d).call = (s.attempts d).call := by
    rw [attempts_update]
    split
    · rename_i same
      rw [same]
    · rfl
  have closes (d : Nat) : (update s.attempts c { s.attempts c with status } d).closes = (s.attempts d).closes := by
    rw [attempts_update]
    split
    · rename_i same
      rw [same]
    · rfl
  constructor
  · intro d known
    simp only [call]
    exact h.made d known
  · intro i d own
    simp only [call]
    exact h.own i d own
  · intro i d own
    have settled := h.taken i d own
    simp only [attempts_update]
    split
    · rename_i same
      rw [same, pending] at settled
      cases settled
    · exact settled
  · intro i d own
    simp only [closes]
    exact h.closed i d own
  · intro d known closed
    simp only [closes] at closed
    simp only [call]
    exact h.unclosed d known closed
  · intro d held
    simp only [call]
    exact h.held d held

theorem linked_connect (h : Linked s) (called : i < s.count) (links : (s.calls i).phase.links = (none, none, none))
    (connects : p.links = (some s.attempted, none, none)) :
    Linked ({ s with attempted := s.attempted + 1, attempts := update s.attempts s.attempted { call := i } }.setPhase i p) := by
  have before : (s.calls i).phase.attempt = none := congrArg Prod.fst links
  have untaken : (s.calls i).phase.taken = none := congrArg (·.2.1) links
  have now : p.attempt = some s.attempted := congrArg Prod.fst connects
  have still : p.taken = none := congrArg (·.2.1) connects
  have unclosed : p.closed = none := congrArg (·.2.2) connects
  have older {d : Nat} (known : d < s.attempted) : (s.attempts d).call ≠ i := by
    intro same
    obtain ⟨-, own⟩ := h.made d known
    rw [same, before] at own
    cases own
  constructor
  · intro d known
    have bound : d < s.attempted + 1 := known
    rw [phase_setPhase]
    simp only [State.setPhase, attempts_update]
    by_cases new : d = s.attempted
    · rw [if_pos new]
      simp only [if_pos]
      rw [new]
      exact ⟨called, now⟩
    · rw [if_neg new, if_neg (older (by omega))]
      exact h.made d (by omega)
  · intro j d own
    rw [phase_setPhase] at own
    simp only [State.setPhase, attempts_update]
    split at own
    · rename_i same
      rw [now] at own
      cases own
      rw [if_pos rfl]
      exact ⟨Nat.lt_succ_self _, same.symm⟩
    · obtain ⟨known, caller⟩ := h.own j d own
      rw [if_neg (by omega)]
      exact ⟨by omega, caller⟩
  · intro j d own
    rw [phase_setPhase] at own
    simp only [State.setPhase, attempts_update]
    split at own
    · rw [still] at own
      cases own
    · have known := (h.own j d (attempt_of_taken own)).1
      rw [if_neg (by omega)]
      exact h.taken j d own
  · intro j d own
    rw [phase_setPhase] at own
    simp only [State.setPhase, attempts_update]
    split at own
    · rw [unclosed] at own
      cases own
    · have closed := h.closed j d own
      split
      · rename_i new
        exact absurd (h.own j d (attempt_of_closed own)).1 (by omega)
      · exact closed
  · intro d known closes
    have bound : d < s.attempted + 1 := known
    rw [phase_setPhase]
    simp only [State.setPhase, attempts_update] at closes ⊢
    by_cases new : d = s.attempted
    · rw [if_pos new] at closes
      exact absurd closes (Nat.lt_irrefl 0)
    · rw [if_neg new] at closes ⊢
      rw [if_neg (older (by omega))]
      exact h.unclosed d (by omega) closes
  · intro d held
    obtain ⟨known, own⟩ := h.held d held
    rw [phase_setPhase]
    simp only [State.setPhase, attempts_update]
    rw [if_neg (Nat.ne_of_lt known), if_neg (older known)]
    exact ⟨by omega, own⟩

theorem linked_take (h : Linked s) (waits : (s.calls i).phase = .connecting c)
    (established : (s.attempts c).status = .established) (looped : p.links = (some c, some c, none))
    (attempted : u.attempted = s.attempted) (attempts : u.attempts = s.attempts) (count : u.count = s.count)
    (held : u.connection = some c) (phases : ∀ j, (u.calls j).phase = if j = i then p else (s.calls j).phase) :
    Linked u := by
  obtain ⟨known, caller⟩ := h.own i c (by rw [waits]; rfl)
  have attempt : p.attempt = some c := congrArg Prod.fst looped
  have taken : p.taken = some c := congrArg (·.2.1) looped
  have unclosed : p.closed = none := congrArg (·.2.2) looped
  constructor
  · intro d known
    rw [attempted] at known
    obtain ⟨called, own⟩ := h.made d known
    rw [attempts, count, phases]
    split
    · rename_i same
      rw [same, waits] at own
      cases own
      exact ⟨called, attempt⟩
    · exact ⟨called, own⟩
  · intro j d own
    rw [phases] at own
    rw [attempted, attempts]
    split at own
    · rename_i same
      rw [attempt] at own
      cases own
      exact ⟨known, caller.trans same.symm⟩
    · exact h.own j d own
  · intro j d own
    rw [phases] at own
    rw [attempts]
    split at own
    · rw [taken] at own
      cases own
      exact established
    · exact h.taken j d own
  · intro j d own
    rw [phases] at own
    rw [attempts]
    split at own
    · rw [unclosed] at own
      cases own
    · exact h.closed j d own
  · intro d known closes
    rw [attempted] at known
    rw [attempts] at closes
    have own := h.unclosed d known closes
    rw [attempts, phases]
    split
    · rename_i same
      rw [same, waits] at own
      cases own
    · exact own
  · intro d here
    rw [held] at here
    cases here
    rw [attempted, attempts, phases, if_pos caller]
    exact ⟨known, taken⟩

theorem linked_close (h : Linked s) (owner : (s.calls (s.attempts c).call).phase.taken = some c)
    (attempt : p.attempt = (s.calls i).phase.attempt) (taken : p.taken = (s.calls i).phase.taken)
    (closed : ∀ d, p.closed = some d → d = c) (attempted : u.attempted = s.attempted)
    (attempts : u.attempts = update s.attempts c { s.attempts c with closes := (s.attempts c).closes + 1 })
    (count : u.count = s.count) (held : u.connection = s.connection ∨ u.connection = none)
    (phases : ∀ j, (u.calls j).phase = if j = i then p else (s.calls j).phase) : Linked u := by
  have attempt' (j : Nat) : (u.calls j).phase.attempt = (s.calls j).phase.attempt := by
    rw [phases]
    split
    · rename_i same
      rw [same, attempt]
    · rfl
  have taken' (j : Nat) : (u.calls j).phase.taken = (s.calls j).phase.taken := by
    rw [phases]
    split
    · rename_i same
      rw [same, taken]
    · rfl
  have call (d : Nat) : (u.attempts d).call = (s.attempts d).call := by
    rw [attempts, attempts_update]
    split
    · rename_i same
      rw [same]
    · rfl
  constructor
  · intro d known
    rw [attempted] at known
    rw [call, count, attempt']
    exact h.made d known
  · intro j d own
    rw [attempt'] at own
    rw [attempted, call]
    exact h.own j d own
  · intro j d own
    rw [taken'] at own
    rw [attempts, attempts_update]
    split
    · rename_i same
      rw [← same]
      exact h.taken j d own
    · exact h.taken j d own
  · intro j d own
    rw [phases] at own
    rw [attempts, attempts_update]
    split
    · exact Nat.succ_pos _
    · rename_i other
      split at own
      · exact absurd (closed d own) other
      · exact h.closed j d own
  · intro d known closes
    rw [attempted] at known
    rw [attempts, attempts_update] at closes
    rw [call, taken']
    split at closes
    · rename_i same
      rw [same]
      exact owner
    · exact h.unclosed d known closes
  · intro d here
    rcases held with same | gone
    · rw [same] at here
      rw [attempted, call, taken']
      exact h.held d here
    · rw [gone] at here
      cases here

/-- The call that is under way goes on, under a flag that fits its new phase. -/
theorem kept_moves (h : Kept s) (unsettled : (s.calls i).phase.settled = false) (count : u.count = s.count)
    (phases : ∀ j, (u.calls j).phase = if j = i then p else (s.calls j).phase)
    (unheld : u.connector.started = false → u.connection = none ∧ u.client = none)
    (opening : p.opening = true → u.connector.started = false) (holding : p.holding = true → u.connector.started = true)
    (failed : ∀ stage error, p = .rejected stage error → u.connector.started = stage.isEnsuring) : Kept u := by
  have last := h.last i unsettled
  have resting {j : Nat} (other : j ≠ i) : (s.calls j).phase.settled = true := by
    cases rests : (s.calls j).phase.settled with
    | true => rfl
    | false =>
      have := h.last j rests
      omega
  constructor
  · exact unheld
  · intro j opens
    rw [phases] at opens
    split at opens
    · exact opening opens
    · rename_i other
      have settled := resting other
      cases phase : (s.calls j).phase <;> simp_all [Phase.opening, Phase.settled]
  · intro j holds
    rw [phases] at holds
    split at holds
    · exact holding holds
    · rename_i other
      have settled := resting other
      cases phase : (s.calls j).phase <;> simp_all [Phase.holding, Phase.settled]
  · intro j runs
    rw [phases] at runs
    rw [count]
    split at runs
    · rename_i same
      rw [same]
      exact last
    · exact h.last j runs
  · intro j beyond
    rw [count] at beyond
    rw [phases, if_neg (by omega)]
    exact h.fresh j beyond
  · intro j stage error here rejected
    rw [count] at here
    rw [phases, if_pos (by omega)] at rejected
    exact failed stage error rejected

theorem kept_setPhase (h : Kept s) (continues : Continues (s.calls i).phase p) : Kept (s.setPhase i p) := by
  apply kept_moves h continues.unsettled
  · rfl
  · exact fun j => phase_setPhase s i j p
  · exact h.unheld
  · exact fun opening => h.opening i (continues.opening opening)
  · exact fun holding => h.holding i (continues.holding holding)
  · intro stage error rejected
    obtain ⟨opening, early⟩ := continues.failed stage error rejected
    rw [early]
    exact h.opening i opening

structure Sound (s : State H) : Prop where
  linked : Linked s
  kept : Kept s

theorem sound_setPhase (h : Sound s) (continues : Continues (s.calls i).phase p) : Sound (s.setPhase i p) :=
  ⟨linked_setPhase h.linked continues, kept_setPhase h.kept continues⟩

theorem sound_aside (h : Sound s) (attempted : u.attempted = s.attempted) (attempts : u.attempts = s.attempts)
    (count : u.count = s.count) (connection : u.connection = s.connection) (client : u.client = s.client)
    (started : u.connector.started = s.connector.started) (phases : ∀ i, (u.calls i).phase = (s.calls i).phase) : Sound u := by
  constructor
  · exact linked_same h.linked attempted attempts (Nat.le_of_eq count.symm) (.inl connection) fun i => by rw [phases]
  · exact kept_same h.kept started connection client count phases

theorem sound_addCall (h : Sound s) (idle : s.Idle) (aborted : Bool) (links : p.links = (none, none, none))
    (opening : p.opening = true → s.connector.started = false) (holding : p.holding = false)
    (failed : ∀ stage error, p = .rejected stage error → s.connector.started = stage.isEnsuring) :
    Sound (s.addCall aborted p) :=
  ⟨linked_addCall h.linked (h.kept.fresh s.count le_rfl) links, kept_addCall h.kept idle opening holding failed⟩

theorem continues_rolls {q : Phase} (looped : Looped c q) (position : Nat) (awaited : Ensuring) :
    Continues (.ensuring c position awaited) q := by
  constructor
  · rw [looped_links looped]
    rfl
  · rfl
  · cases looped <;> simp [Phase.opening]
  · simp [Phase.holding]
  · cases looped <;> simp

theorem loop_sound (h : Sound s) {position : Nat} {awaited : Ensuring} (here : (s.calls i).phase = .ensuring c position awaited)
    (next : Nat) : Sound (loop t s i c next) := by
  obtain ⟨p, looped, same⟩ := loop_looped (t := t) s i c next
  rw [same]
  apply sound_setPhase h
  rw [here]
  exact continues_rolls looped position awaited

theorem take_sound (h : Sound s) (waits : (s.calls i).phase = .connecting c)
    (established : (s.attempts c).status = .established) : Sound (take t s i c) := by
  obtain ⟨p, looped, same⟩ := loop_looped (t := t)
    { s with connection := some c, client := some c, connector := { s.connector with started := true } } i c 0
  unfold take
  rw [same]
  constructor
  · exact linked_take h.linked waits established (looped_links looped) rfl rfl rfl rfl fun j => phase_setPhase _ i j p
  · apply kept_moves h.kept (i := i)
    · rw [waits]
      rfl
    · rfl
    · exact fun j => phase_setPhase _ i j p
    · intro stopped
      cases stopped
    · cases looped <;> simp [Phase.opening]
    · intro _
      rfl
    · cases looped <;> simp

theorem connect_sound (h : Sound s) (loaded : (s.calls i).phase = .loadingTls []) : Sound (connect s i) := by
  have called : i < s.count := by
    have := h.kept.last i (by rw [loaded]; rfl)
    omega
  have unstarted := h.kept.opening i (by rw [loaded]; rfl)
  have goes {q : Phase} (connects : q.links = (some s.attempted, none, none)) (holding : q.holding = false)
      (failed : ∀ stage error, q = .rejected stage error → stage.isEnsuring = false) :
      Sound ({ s with attempted := s.attempted + 1,
                      attempts := update s.attempts s.attempted { call := i } }.setPhase i q) := by
    constructor
    · exact linked_connect h.linked called (by rw [loaded]; rfl) connects
    · apply kept_moves h.kept (i := i)
      · rw [loaded]
        rfl
      · rfl
      · exact fun j => phase_setPhase _ i j q
      · exact h.kept.unheld
      · exact fun _ => unstarted
      · rw [holding]
        simp
      · intro stage error rejected
        rw [failed stage error rejected]
        exact unstarted
  unfold connect
  simp only
  split
  · apply goes
    · rfl
    · rfl
    · rintro stage error same
      cases same
      rfl
  · apply goes
    · rfl
    · rfl
    · intros
      contradiction

theorem disconnect_sound (h : Sound s) (stopping : (s.calls i).phase = .stopping) : Sound (disconnect s i) := by
  have unsettled : (s.calls i).phase.settled = false := by
    rw [stopping]
    rfl
  unfold disconnect
  simp only
  split
  · constructor
    · apply linked_same h.linked
      · rfl
      · rfl
      · exact le_rfl
      · exact .inr rfl
      · intro j
        rw [phase_setPhase]
        split
        · rename_i same
          rw [same, stopping]
          rfl
        · rfl
    · apply kept_moves h.kept unsettled
      · rfl
      · exact fun j => phase_setPhase _ i j _
      · exact fun _ => ⟨rfl, rfl⟩
      · simp [Phase.opening]
      · simp [Phase.holding]
      · simp
  · rename_i c held
    constructor
    · apply linked_close h.linked (h.linked.held c held).2 (i := i) (p := .disconnecting)
      · rw [stopping]
        rfl
      · rw [stopping]
        rfl
      · simp [Phase.closed]
      · rfl
      · rfl
      · rfl
      · exact .inr rfl
      · exact fun j => phase_setPhase _ i j _
    · apply kept_moves h.kept unsettled (p := .disconnecting)
      · rfl
      · exact fun j => phase_setPhase _ i j _
      · exact fun _ => ⟨rfl, rfl⟩
      · simp [Phase.opening]
      · simp [Phase.holding]
      · simp

theorem close_sound (h : Sound s) {error : Thrown} (rolls : (s.calls i).phase = .rollingBack c error) :
    Sound ((s.closeAttempt c).setPhase i (.closing c error)) := by
  have caller := (h.linked.own i c (by rw [rolls]; rfl)).2
  constructor
  · apply linked_close h.linked (c := c) (i := i) (p := .closing c error)
    · rw [caller, rolls]
      rfl
    · rw [rolls]
      rfl
    · rw [rolls]
      rfl
    · intro d same
      cases same
      rfl
    · rfl
    · rfl
    · rfl
    · exact .inl rfl
    · exact fun j => phase_setPhase _ i j _
  · apply kept_moves h.kept (i := i) (p := .closing c error)
    · rw [rolls]
      rfl
    · rfl
    · exact fun j => phase_setPhase _ i j _
    · exact h.kept.unheld
    · simp [Phase.opening]
    · exact fun _ => h.kept.holding i (by rw [rolls]; rfl)
    · simp

theorem closed_sound (h : Sound s) {error : Thrown} (closing : (s.calls i).phase = .closing c error) :
    Sound ({ s with connection := none, client := none }.setPhase i (.rejected (.ensuring c) error)) := by
  constructor
  · apply linked_same h.linked
    · rfl
    · rfl
    · exact le_rfl
    · exact .inr rfl
    · intro j
      rw [phase_setPhase]
      split
      · rename_i same
        rw [same, closing]
        rfl
      · rfl
  · apply kept_moves h.kept (i := i)
    · rw [closing]
      rfl
    · rfl
    · exact fun j => phase_setPhase _ i j _
    · exact fun _ => ⟨rfl, rfl⟩
    · simp [Phase.opening]
    · simp [Phase.holding]
    · rintro stage other same
      cases same
      exact h.kept.holding i (by rw [closing]; rfl)

theorem registerEndpoint_started {r : RuntimeConfig} {connector made : TemporalConnector H} {id : Int} {handler : H}
    (called : registerEndpoint t r connector id handler = .ok made) : made.started = connector.started := by
  unfold registerEndpoint at called
  split at called
  · cases called
  · obtain ⟨registration, _, rest⟩ := Framing.bind_ok.mp called
    split at rest
    · cases rest
    · cases rest
      rfl

theorem registerEndpointSubmission_started {r : RuntimeConfig} {connector made : TemporalConnector H} {id : Int}
    (called : registerEndpointSubmission t r connector id = .ok made) : made.started = connector.started := by
  unfold registerEndpointSubmission at called
  split at called
  · cases called
    rfl
  · obtain ⟨registration, _, rest⟩ := Framing.bind_ok.mp called
    cases rest
    rfl

theorem start_sound (h : Sound s) (idle : s.Idle) (o : StartInput) : Sound (start s o) := by
  unfold start
  split
  · exact sound_addCall h idle _ rfl (by simp [Phase.opening]) rfl (by simp)
  · rename_i unstarted
    have stopped : s.connector.started = false := by simpa using unstarted
    have refused {u : State H} (sound : Sound u) (resting : u.Idle) (unstarted : u.connector.started = false)
        {stage : Stage} (early : stage.isEnsuring = false) (unmade : stage.attempt = none) (aborted : Bool) (error : Thrown) :
        Sound (u.addCall aborted (.rejected stage error)) := by
      apply sound_addCall sound resting
      · cases stage <;> simp_all [Phase.links, Phase.attempt, Phase.taken, Phase.closed, Stage.isEnsuring]
      · simp [Phase.opening]
      · rfl
      · intro other thrown same
        cases same
        rw [early]
        exact unstarted
    split
    · exact refused h idle stopped rfl rfl true none
    · split
      · rename_i error _
        exact refused h idle stopped rfl rfl false error
      · have installed {listening : Option String} : Sound { s with sdkRuntime := some listening } :=
          sound_aside h rfl rfl rfl rfl rfl rfl fun _ => rfl
        simp only
        split
        · exact refused installed idle stopped rfl rfl false _
        · apply sound_addCall installed idle
          · rfl
          · exact fun _ => stopped
          · rfl
          · simp

theorem resume_sound (h : Sound s) (next : resume t s i = some u) : Sound u := by
  unfold resume at next
  split at next
  · rename_i loaded
    cases next
    exact connect_sound h loaded
  · rename_i c waits
    split at next
    · cases next
    · cases next
      apply sound_setPhase h
      rw [waits]
      constructor <;> simp [Phase.links, Phase.attempt, Stage.attempt, Phase.taken, Phase.closed, Phase.settled, Phase.opening,
        Phase.holding, Stage.isEnsuring]
    · rename_i established
      cases next
      exact take_sound h waits established
  · rename_i here
    cases next
    exact loop_sound h here _
  · cases next

theorem fileRead_sound (h : Sound s) {reads : Bool} (next : fileRead s i reads = some u) : Sound u := by
  unfold fileRead at next
  split at next
  · rename_i loading
    cases next
    apply sound_setPhase h
    rw [loading]
    cases reads <;> constructor <;> simp [Phase.links, Phase.attempt, Stage.attempt, Phase.taken, Phase.closed, Phase.settled,
      Phase.opening, Phase.holding, Stage.isEnsuring]
  · cases next

theorem abort_sound (h : Sound s) (next : abort s i = some u) : Sound u := by
  have aborted : Sound { s with calls := update s.calls i { s.calls i with aborted := true } } := by
    refine sound_aside h ?_ ?_ ?_ ?_ ?_ ?_ ?_
    iterate 6 rfl
    intro j
    by_cases same : j = i
    · subst same
      simp
    · simp [same]
  unfold abort at next
  split at next
  · cases next
  · simp only at next
    split at next
    · rename_i c waits
      cases next
      apply sound_setPhase aborted
      simp only [update_self, waits]
      constructor <;> simp [Phase.links, Phase.attempt, Stage.attempt, Phase.taken, Phase.closed, Phase.settled, Phase.opening,
        Phase.holding, Stage.isEnsuring]
    · cases next
      exact aborted

theorem settleAttempt_sound (h : Sound s) {establishes : Bool} (next : settleAttempt s c establishes = some u) : Sound u := by
  unfold settleAttempt at next
  split at next
  · rename_i pending
    cases next
    exact ⟨linked_settle h.linked pending.2 _, kept_same h.kept rfl rfl rfl rfl fun _ => rfl⟩
  · cases next

theorem answerCreate_sound (h : Sound s) {answer : CreateAnswer} (next : answerCreate t s i answer = some u) : Sound u := by
  unfold answerCreate at next
  split at next
  · rename_i c position schedule here
    have goes {q : Phase} (looped : Looped c q) : Sound (s.setPhase i q) := by
      apply sound_setPhase h
      rw [here]
      exact continues_rolls looped position _
    split at next
    · cases next
      exact loop_sound h here _
    · cases next
      exact goes (.throws _)
    · split at next
      · cases next
        exact goes (.throws _)
      · cases next
        exact goes (.waits _ _)
  · cases next

theorem answerDescribe_sound (h : Sound s) {answer : Option Description} (next : answerDescribe t s i answer = some u) :
    Sound u := by
  unfold answerDescribe at next
  split at next
  · rename_i c position schedule here
    have goes {q : Phase} (looped : Looped c q) : Sound (s.setPhase i q) := by
      apply sound_setPhase h
      rw [here]
      exact continues_rolls looped position _
    split at next
    · cases next
      exact goes (.throws _)
    · split at next
      · cases next
        exact goes (.throws _)
      · cases next
        exact loop_sound h here _
  · cases next

theorem workersSettle_sound (h : Sound s) (next : workersSettle s i = some u) : Sound u := by
  unfold workersSettle at next
  split at next
  · rename_i rolls
    cases next
    exact close_sound h rolls
  · rename_i stopping
    cases next
    exact disconnect_sound h stopping
  · cases next

theorem closeSettles_sound (h : Sound s) (next : closeSettles s i = some u) : Sound u := by
  unfold closeSettles at next
  split at next
  · rename_i closing
    cases next
    exact closed_sound h closing
  · rename_i disconnecting
    cases next
    apply sound_setPhase h
    rw [disconnecting]
    constructor <;> simp [Phase.links, Phase.attempt, Phase.taken, Phase.closed, Phase.settled, Phase.opening, Phase.holding]
  · cases next

theorem step_sound {a : Action H} (h : Sound s) (admitted : OneAtATime s a) (next : step t s a = some u) : Sound u := by
  cases a with
  | registerEndpoint id handler =>
    cases next
    refine sound_aside h rfl rfl rfl rfl rfl ?_ fun _ => rfl
    cases called : registerEndpoint t s.config s.connector id handler with
    | error error => rfl
    | ok made => exact registerEndpoint_started called
  | registerEndpointSubmission id =>
    cases next
    refine sound_aside h rfl rfl rfl rfl rfl ?_ fun _ => rfl
    cases called : registerEndpointSubmission t s.config s.connector id with
    | error error => rfl
    | ok made => exact registerEndpointSubmission_started called
  | replaceConfig config =>
    cases next
    exact sound_aside h rfl rfl rfl rfl rfl rfl fun _ => rfl
  | installElsewhere address =>
    simp only [step] at next
    split at next
    · cases next
    · cases next
      exact sound_aside h rfl rfl rfl rfl rfl rfl fun _ => rfl
  | start input =>
    cases next
    exact start_sound h admitted input
  | stop aborted =>
    cases next
    exact sound_addCall h admitted aborted rfl (by simp [Phase.opening]) rfl (by simp)
  | abort i => exact abort_sound h next
  | fileRead i reads => exact fileRead_sound h next
  | settleAttempt c establishes => exact settleAttempt_sound h next
  | resume i => exact resume_sound h next
  | answerCreate i answer => exact answerCreate_sound h next
  | answerDescribe i answer => exact answerDescribe_sound h next
  | workersSettle i => exact workersSettle_sound h next
  | closeSettles i => exact closeSettles_sound h next

theorem initial_sound {r : RuntimeConfig} {connectorId : Int} {made : TemporalConnector H} {sdkRuntime : Option (Option String)}
    (makes : makeConnector r connectorId = .ok made) :
    Sound ({ config := r, connector := made, sdkRuntime } : State H) := by
  have unstarted : made.started = false := by
    unfold makeConnector at makes
    split at makes
    · cases makes
      rfl
    · cases makes
  constructor
  · constructor <;> simp [Phase.attempt, Phase.taken, Phase.closed]
  · constructor <;> simp [Phase.opening, Phase.holding, Phase.settled]

theorem reachable_sound (reached : Reachable t s) : Sound s := by
  obtain ⟨r, connectorId, made, sdkRuntime, makes, run⟩ := reached
  exact steps_invariant Sound (fun _ _ _ held admitted next => step_sound held admitted next) run (initial_sound makes)

end Sound

end TemporalConnectors.Lifecycle
