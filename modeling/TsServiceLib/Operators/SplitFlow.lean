import TsServiceLib.Operators.SplitStream

/-!
What one emission does. The links that are done form a prefix of the dispatch
order, all of them successful; behind it stands the link at which the emission
has arrived, and the callbacks for the rest wait, each for the promise of the
one before it.
-/
namespace SplitStreams
open Function Transitions
variable {E : Type}

section Script
variable (behaviour : SplitLink → Behaviour E)

def outcome (link : SplitLink) : Settlement E :=
  match behaviour link with
  | .returns | .resolvesLater => .fulfilled
  | .throws error | .rejectsLater error => .rejected error

/-- The calls in the given order, each after the one before has completed, up to the first failure. -/
def script : List SplitLink → List (Event E)
  | [] => []
  | link :: rest =>
    match outcome behaviour link with
    | .fulfilled => .emitted link :: .completed link :: script rest
    | .rejected error => [.emitted link, .failed link error]

/-- The first failure, if there is one. -/
def verdict : List SplitLink → Settlement E
  | [] => .fulfilled
  | link :: rest =>
    match outcome behaviour link with
    | .fulfilled => verdict rest
    | .rejected error => .rejected error

variable {behaviour} {done rest : List SplitLink}

theorem script_append (good : ∀ link ∈ done, outcome behaviour link = .fulfilled) :
    script behaviour (done ++ rest) = script behaviour done ++ script behaviour rest := by
  induction done with
  | nil => rfl
  | cons link done ih =>
    have first := good link List.mem_cons_self
    simp only [List.cons_append, script, first]
    rw [ih fun link member => good link (List.mem_cons_of_mem _ member)]

theorem verdict_append (good : ∀ link ∈ done, outcome behaviour link = .fulfilled) :
    verdict behaviour (done ++ rest) = verdict behaviour rest := by
  induction done with
  | nil => rfl
  | cons link done ih =>
    have first := good link List.mem_cons_self
    simp only [List.cons_append, verdict, first]
    exact ih fun link member => good link (List.mem_cons_of_mem _ member)

theorem script_failed {link : SplitLink} {error : E} (good : ∀ link ∈ done, outcome behaviour link = .fulfilled)
    (bad : outcome behaviour link = .rejected error) :
    script behaviour (done ++ link :: rest) = script behaviour done ++ [.emitted link, .failed link error] := by
  rw [script_append good]
  simp only [script, bad]

theorem script_passed {link : SplitLink} (good : ∀ link ∈ done, outcome behaviour link = .fulfilled)
    (passed : outcome behaviour link = .fulfilled) :
    script behaviour (done ++ [link]) = script behaviour done ++ [.emitted link, .completed link] := by
  rw [script_append good]
  simp only [script, passed]

/-- An emission under way has written a prefix of the script. -/
theorem script_prefix {link : SplitLink} (good : ∀ link ∈ done, outcome behaviour link = .fulfilled) :
    script behaviour done ++ [.emitted link] <+: script behaviour (done ++ link :: rest) := by
  rw [script_append good, List.prefix_append_right_inj]
  simp only [script]
  split <;> simp

end Script

section Frames
variable {s t : Emission E} {link : SplitLink} {p : Promise} {rest : List SplitLink}

structure Over (s : Emission E) (link : SplitLink) : Prop where
  waiting : s.waiting link = none
  adopting : s.adopting link = false
  returned : s.returned link = true → s.settlement (.returned link) ≠ none

/-- Nothing has happened for this link yet. -/
structure Untouched (s : Emission E) (link : SplitLink) : Prop where
  adopting : s.adopting link = false
  returned : s.returned link = false
  own : s.settlement (.returned link) = none
  chained : s.settlement (.chained link) = none

/-- The callbacks for these links wait, each for the promise of the one before. -/
def Waiting (s : Emission E) : Promise → List SplitLink → Prop
  | _, [] => True
  | p, link :: rest => s.waiting link = some p ∧ Untouched s link ∧ Waiting s (.chained link) rest

def lastOf : Promise → List SplitLink → Promise
  | p, [] => p
  | _, link :: rest => lastOf (.chained link) rest

theorem lastOf_append (p : Promise) (gone left : List SplitLink) : lastOf p (gone ++ left) = lastOf (lastOf p gone) left := by
  induction gone generalizing p with
  | nil => rfl
  | cons link gone ih =>
    simp only [List.cons_append, lastOf]
    exact ih (.chained link)

/-- What two states say about one link. -/
structure SameAt (s t : Emission E) (link : SplitLink) : Prop where
  waiting : t.waiting link = s.waiting link
  adopting : t.adopting link = s.adopting link
  returned : t.returned link = s.returned link
  own : t.settlement (.returned link) = s.settlement (.returned link)
  chained : t.settlement (.chained link) = s.settlement (.chained link)

theorem over_of_same (same : SameAt s t link) (spent : Over s link) : Over t link := by
  constructor
  · rw [same.waiting]
    exact spent.waiting
  · rw [same.adopting]
    exact spent.adopting
  · rw [same.returned, same.own]
    exact spent.returned

theorem untouched_of_same (same : SameAt s t link) (untouched : Untouched s link) : Untouched t link := by
  constructor
  · rw [same.adopting]
    exact untouched.adopting
  · rw [same.returned]
    exact untouched.returned
  · rw [same.own]
    exact untouched.own
  · rw [same.chained]
    exact untouched.chained

theorem waiting_of_same (same : ∀ link ∈ rest, SameAt s t link) (waiting : Waiting s p rest) : Waiting t p rest := by
  induction rest generalizing p with
  | nil => trivial
  | cons link rest ih =>
    obtain ⟨source, untouched, behind⟩ := waiting
    have here := same link List.mem_cons_self
    refine ⟨?_, untouched_of_same here untouched, ih (fun link member => same link (List.mem_cons_of_mem _ member)) behind⟩
    rw [here.waiting]
    exact source

/-- While links wait, the promise at the end of the chain is open. -/
theorem waiting_last_open (waiting : Waiting s p rest) (open' : s.settlement p = none) :
    s.settlement (lastOf p rest) = none := by
  induction rest generalizing p with
  | nil => exact open'
  | cons link rest ih =>
    obtain ⟨source, untouched, behind⟩ := waiting
    exact ih behind untouched.chained

end Frames

section Steps
variable {behaviour : SplitLink → Behaviour E} {s t : Emission E} {link : SplitLink} {p : Promise} {rest : List SplitLink}

def Action.link? : Action → Option SplitLink
  | .answer link | .react link | .adopt link => some link
  | .finish => none

/-- What a step leaves as it is. -/
structure Framed (s t : Emission E) (touched : Option SplitLink) : Prop where
  traced : t.traced = s.traced
  thrown : t.thrown = s.thrown
  pending : t.pending = s.pending
  same : ∀ link, touched ≠ some link → SameAt s t link

theorem answer_cases (next : answer behaviour s link = some t) :
    s.returned link = true ∧ s.settlement (.returned link) = none ∧
      t = record (settle s (.returned link) (outcome behaviour link)) [ended link (outcome behaviour link)] := by
  unfold answer at next
  split at next
  · rename_i enabled
    refine ⟨enabled.1, enabled.2, ?_⟩
    split at next <;> rename_i kind <;> cases next <;> simp only [outcome, kind, ended]
  · cases next

/-- The link answers with a promise. -/
def Later (behaviour : SplitLink → Behaviour E) (link : SplitLink) : Prop :=
  behaviour link = .resolvesLater ∨ ∃ error, behaviour link = .rejectsLater error

theorem emit_cases (behaviour : SplitLink → Behaviour E) (s : Emission E) (link : SplitLink) :
    emit behaviour s link =
        (record s [.emitted link, ended link (outcome behaviour link)], some (outcome behaviour link)) ∨
      emit behaviour s link = ({ record s [.emitted link] with returned := update s.returned link true }, none) ∧
        Later behaviour link := by
  unfold emit outcome Later
  cases behaviour link with
  | returns => exact .inl rfl
  | throws error => exact .inl rfl
  | resolvesLater => exact .inr ⟨rfl, .inl rfl⟩
  | rejectsLater error => exact .inr ⟨rfl, .inr ⟨error, rfl⟩⟩

/-- The callback for a link is taken off its promise. -/
def woken (s : Emission E) (link : SplitLink) : Emission E := { s with waiting := update s.waiting link none }

/-- What the callback for a link does once its promise has been fulfilled. -/
inductive Emitted (behaviour : SplitLink → Behaviour E) (s t : Emission E) (link : SplitLink) : Prop where
  | inline (moved : t = settle (record (woken s link) [.emitted link, ended link (outcome behaviour link)])
      (.chained link) (outcome behaviour link))
  | adopts (moved : t = { record (woken s link) [.emitted link] with
      returned := update s.returned link true
      adopting := update s.adopting link true }) (later : Later behaviour link)

theorem react_cases (next : react behaviour s link = some t) :
    ∃ p, s.waiting link = some p ∧
      ((∃ error, s.settlement p = some (.rejected error) ∧ t = settle (woken s link) (.chained link) (.rejected error)) ∨
        s.settlement p = some .fulfilled ∧ Emitted behaviour s t link) := by
  unfold react at next
  cases source : s.waiting link with
  | none =>
    rw [source] at next
    cases next
  | some p =>
    refine ⟨p, rfl, ?_⟩
    rw [source, Option.bind_some] at next
    cases settled : s.settlement p with
    | none =>
      rw [settled] at next
      cases next
    | some result =>
      rw [settled] at next
      cases result with
      | rejected error =>
        cases next
        exact .inl ⟨error, rfl, rfl⟩
      | fulfilled =>
        refine .inr ⟨rfl, ?_⟩
        rcases emit_cases behaviour (woken s link) link with inline | ⟨later, kind⟩
        · unfold woken at inline
          simp only [inline, Option.some.injEq] at next
          exact .inline next.symm
        · unfold woken at later
          simp only [later, Option.some.injEq] at next
          exact .adopts next.symm kind

theorem adopt_cases (next : adopt s link = some t) :
    s.adopting link = true ∧ ∃ result, s.settlement (.returned link) = some result ∧
      t = settle { s with adopting := update s.adopting link false } (.chained link) result := by
  unfold adopt at next
  split at next
  · rename_i adopting
    rw [Option.map_eq_some_iff] at next
    obtain ⟨result, settled, rfl⟩ := next
    exact ⟨adopting, result, settled, rfl⟩
  · cases next

theorem finish_cases (next : finish s = some t) :
    s.traced = true ∧ s.final = none ∧ ∃ p result, s.pending = some p ∧ s.settlement p = some result ∧
      t = { s with final := some result } := by
  unfold finish at next
  split at next
  · rename_i enabled
    simp only [Option.map_eq_some_iff, Option.bind_eq_some_iff] at next
    obtain ⟨result, ⟨p, pending, settled⟩, rfl⟩ := next
    exact ⟨enabled.1, enabled.2.2, p, result, pending, settled, rfl⟩
  · cases next

theorem step_framed {a : Action} (next : step behaviour s a = some t) : Framed s t a.link? := by
  cases a with
  | answer touched =>
    obtain ⟨-, -, rfl⟩ := answer_cases next
    refine ⟨rfl, rfl, rfl, ?_⟩
    intro link other
    have apart : link ≠ touched := by
      intro same
      exact other (by rw [Action.link?, same])
    constructor <;> simp [record, settle, apart]
  | react touched =>
    refine ⟨?_, ?_, ?_, ?_⟩ <;> obtain ⟨p, -, ⟨error, -, rfl⟩ | ⟨-, ⟨rfl⟩ | ⟨rfl, -⟩⟩⟩ := react_cases next
    all_goals first | rfl | skip
    all_goals
      intro link other
      have apart : link ≠ touched := by
        intro same
        exact other (by rw [Action.link?, same])
      constructor <;> simp [record, settle, woken, apart]
  | adopt touched =>
    obtain ⟨-, result, -, rfl⟩ := adopt_cases next
    refine ⟨rfl, rfl, rfl, ?_⟩
    intro link other
    have apart : link ≠ touched := by
      intro same
      exact other (by rw [Action.link?, same])
    constructor <;> simp [settle, apart]
  | finish =>
    obtain ⟨-, -, p, result, -, -, rfl⟩ := finish_cases next
    exact ⟨rfl, rfl, rfl, fun link _ => ⟨rfl, rfl, rfl, rfl, rfl⟩⟩

theorem over_disabled {a : Action} (spent : Over s link) (next : step behaviour s a = some t) : a.link? ≠ some link := by
  intro touched
  cases a with
  | answer k =>
    cases touched
    obtain ⟨returned, open', -⟩ := answer_cases next
    exact spent.returned returned open'
  | react k =>
    cases touched
    obtain ⟨p, waiting, -⟩ := react_cases next
    rw [spent.waiting] at waiting
    cases waiting
  | adopt k =>
    cases touched
    obtain ⟨adopting, -⟩ := adopt_cases next
    rw [spent.adopting] at adopting
    cases adopting
  | finish => cases touched

/-- Of the links that wait, only the first can move, once the promise before it has settled. -/
theorem waiting_enabled {a : Action} (waiting : Waiting s p rest) (member : link ∈ rest)
    (next : step behaviour s a = some t) (touched : a.link? = some link) :
    a = .react link ∧ (∃ left, rest = link :: left) ∧ s.settlement p ≠ none := by
  induction rest generalizing p with
  | nil => cases member
  | cons first rest ih =>
    obtain ⟨source, untouched, behind⟩ := waiting
    by_cases here : link = first
    · subst here
      cases a with
      | answer k =>
        cases touched
        obtain ⟨returned, -⟩ := answer_cases next
        rw [untouched.returned] at returned
        cases returned
      | react k =>
        cases touched
        refine ⟨rfl, ⟨rest, rfl⟩, ?_⟩
        obtain ⟨p', waiting, settled⟩ := react_cases next
        rw [source] at waiting
        cases waiting
        rcases settled with ⟨error, settled, -⟩ | ⟨settled, -⟩
        · rw [settled]
          exact Option.some_ne_none _
        · rw [settled]
          exact Option.some_ne_none _
      | adopt k =>
        cases touched
        obtain ⟨adopting, -⟩ := adopt_cases next
        rw [untouched.adopting] at adopting
        cases adopting
      | finish => cases touched
    · have later : link ∈ rest := (List.mem_cons.mp member).resolve_left here
      obtain ⟨-, -, settled⟩ := ih behind later
      exact absurd untouched.chained settled

end Steps

section Flow
variable {behaviour : SplitLink → Behaviour E} {order done rest : List SplitLink} {s t : Emission E}
  {link : SplitLink} {p : Promise}

/-- The emission has arrived at `link`, whose promise in the chain is `p`. -/
structure Placed (behaviour : SplitLink → Behaviour E) (order : List SplitLink) (s : Emission E)
    (done : List SplitLink) (link : SplitLink) (rest : List SplitLink) (p : Promise) : Prop where
  split : order = done ++ link :: rest
  good : ∀ earlier ∈ done, outcome behaviour earlier = .fulfilled
  others : ∀ other, other ∉ link :: rest → Over s other
  idle : s.waiting link = none
  pending : s.pending = some (lastOf p rest)
  thrown : s.thrown = none

/-- How far the call of `link` has come. -/
inductive Phase (behaviour : SplitLink → Behaviour E) (s : Emission E)
    (done : List SplitLink) (link : SplitLink) (rest : List SplitLink) (p : Promise) : Prop where
  | running (returned : s.returned link = true) (open' : s.settlement (.returned link) = none)
      (own : p = .returned link ∧ s.adopting link = false ∨
        p = .chained link ∧ s.adopting link = true ∧ s.settlement (.chained link) = none)
      (log : s.log = script behaviour done ++ [.emitted link]) (behind : Waiting s p rest)
  | landed (settled : s.settlement (.returned link) = some (outcome behaviour link))
      (own : p = .chained link) (adopting : s.adopting link = true) (open' : s.settlement (.chained link) = none)
      (log : s.log = script behaviour done ++ [.emitted link, ended link (outcome behaviour link)])
      (behind : Waiting s p rest)
  | resolved (spent : Over s link) (passed : outcome behaviour link = .fulfilled)
      (settled : s.settlement p = some .fulfilled) (log : s.log = script behaviour (done ++ [link]))
      (behind : Waiting s p rest)
  | failed (error : E) (gone left : List SplitLink) (split : rest = gone ++ left) (spent : Over s link)
      (bad : outcome behaviour link = .rejected error) (passed : ∀ other ∈ gone, Over s other)
      (settled : s.settlement (lastOf p gone) = some (.rejected error))
      (log : s.log = script behaviour (done ++ link :: rest)) (behind : Waiting s (lastOf p gone) left)

inductive Flow (behaviour : SplitLink → Behaviour E) (order : List SplitLink) (s : Emission E) : Prop where
  | inline (pending : s.pending = none) (spent : ∀ link, Over s link) (log : s.log = script behaviour order)
      (thrown : s.thrown.elim .fulfilled .rejected = verdict behaviour order)
  | chained (done : List SplitLink) (link : SplitLink) (rest : List SplitLink) (p : Promise)
      (placed : Placed behaviour order s done link rest p) (phase : Phase behaviour s done link rest p)

theorem placed_step (placed : Placed behaviour order s done link rest p) {touched : Option SplitLink}
    (framed : Framed s t touched) (concerns : ∀ other, touched = some other → other ∈ link :: rest)
    (idle : t.waiting link = none) : Placed behaviour order t done link rest p where
  split := placed.split
  good := placed.good
  others other outside := by
    refine over_of_same (framed.same other ?_) (placed.others other outside)
    intro same
    exact outside (concerns other same)
  idle := idle
  pending := by
    rw [framed.pending]
    exact placed.pending
  thrown := by
    rw [framed.thrown]
    exact placed.thrown

theorem placed_apart (nodup : order.Nodup) (placed : Placed behaviour order s done link rest p) :
    link ∉ rest ∧ rest.Nodup := by
  rw [placed.split] at nodup
  exact List.nodup_cons.mp (List.nodup_append.mp nodup).2.1

/-- Only what stands at the front or behind it can move. -/
theorem placed_concerns (placed : Placed behaviour order s done link rest p) {a : Action}
    (next : step behaviour s a = some t) (other : SplitLink) (touched : a.link? = some other) : other ∈ link :: rest := by
  by_contra outside
  exact over_disabled (placed.others other outside) next touched

theorem waiting_framed {touched : Option SplitLink} (framed : Framed s t touched) (apart : ∀ other ∈ rest, touched ≠ some other)
    (waiting : Waiting s p rest) : Waiting t p rest :=
  waiting_of_same (fun other member => framed.same other (apart other member)) waiting

/-- While the call of the front runs, its promise can settle, and nothing else. -/
theorem running_step (nodup : order.Nodup) (placed : Placed behaviour order s done link rest p) {a : Action}
    (returned : s.returned link = true) (open' : s.settlement (.returned link) = none)
    (own : p = .returned link ∧ s.adopting link = false ∨
      p = .chained link ∧ s.adopting link = true ∧ s.settlement (.chained link) = none)
    (log : s.log = script behaviour done ++ [.emitted link]) (behind : Waiting s p rest)
    (next : step behaviour s a = some t) (moves : a ≠ .finish) :
    Placed behaviour order t done link rest p ∧ Phase behaviour t done link rest p := by
  have framed := step_framed next
  obtain ⟨apart, -⟩ := placed_apart nodup placed
  have unsettled : s.settlement p = none := by
    rcases own with ⟨rfl, -⟩ | ⟨rfl, -, chained⟩
    · exact open'
    · exact chained
  have concerns := placed_concerns placed next
  have here : a.link? = some link := by
    cases touched : a.link? with
    | none => cases a <;> simp_all [Action.link?]
    | some other =>
      rcases List.mem_cons.mp (concerns other touched) with rfl | later
      · rfl
      · exact absurd unsettled (waiting_enabled behind later next touched).2.2
  have answers : a = .answer link := by
    cases a with
    | answer k =>
      cases here
      rfl
    | react k =>
      cases here
      obtain ⟨source, waiting, -⟩ := react_cases next
      rw [placed.idle] at waiting
      cases waiting
    | adopt k =>
      cases here
      obtain ⟨-, result, settled, -⟩ := adopt_cases next
      rw [open'] at settled
      cases settled
    | finish => exact absurd rfl moves
  subst answers
  have unaffected : ∀ other ∈ rest, Action.link? (.answer link) ≠ some other := by
    intro other member same
    cases same
    exact apart member
  have still := waiting_framed framed unaffected behind
  obtain ⟨-, -, rfl⟩ := answer_cases next
  refine ⟨placed_step placed framed concerns placed.idle, ?_⟩
  rcases own with ⟨rfl, plain⟩ | ⟨rfl, adopting, chained⟩
  · have spent : Over (record (settle s (.returned link) (outcome behaviour link)) [ended link (outcome behaviour link)]) link :=
      ⟨placed.idle, plain, by simp [record, settle]⟩
    cases result : outcome behaviour link with
    | fulfilled =>
      rw [result] at spent still
      refine .resolved spent result (by simp [record, settle]) ?_ still
      rw [script_passed placed.good result]
      simp only [record, settle, log, ended, List.append_assoc, List.cons_append, List.nil_append]
    | rejected error =>
      rw [result] at spent still
      refine .failed error [] rest rfl spent result (by simp) (by simp [record, settle, lastOf]) ?_ still
      rw [script_failed placed.good result]
      simp only [record, settle, log, ended, List.append_assoc, List.cons_append, List.nil_append]
  · refine .landed (by simp [record, settle]) rfl adopting (by simpa [record, settle] using chained) ?_ still
    simp only [record, settle, log, List.append_assoc, List.cons_append, List.nil_append]

/-- The callback has answered with a promise that has settled: it can be adopted, and nothing else. -/
theorem landed_step (nodup : order.Nodup) (placed : Placed behaviour order s done link rest p) {a : Action}
    (settled : s.settlement (.returned link) = some (outcome behaviour link)) (own : p = .chained link)
    (adopting : s.adopting link = true) (open' : s.settlement (.chained link) = none)
    (log : s.log = script behaviour done ++ [.emitted link, ended link (outcome behaviour link)])
    (behind : Waiting s p rest) (next : step behaviour s a = some t) (moves : a ≠ .finish) :
    Placed behaviour order t done link rest p ∧ Phase behaviour t done link rest p := by
  have framed := step_framed next
  obtain ⟨apart, -⟩ := placed_apart nodup placed
  subst own
  have concerns := placed_concerns placed next
  have here : a.link? = some link := by
    cases touched : a.link? with
    | none => cases a <;> simp_all [Action.link?]
    | some other =>
      rcases List.mem_cons.mp (concerns other touched) with rfl | later
      · rfl
      · exact absurd open' (waiting_enabled behind later next touched).2.2
  have adopts : a = .adopt link := by
    cases a with
    | answer k =>
      cases here
      obtain ⟨-, unanswered, -⟩ := answer_cases next
      rw [settled] at unanswered
      cases unanswered
    | react k =>
      cases here
      obtain ⟨source, waiting, -⟩ := react_cases next
      rw [placed.idle] at waiting
      cases waiting
    | adopt k =>
      cases here
      rfl
    | finish => exact absurd rfl moves
  subst adopts
  have unaffected : ∀ other ∈ rest, Action.link? (.adopt link) ≠ some other := by
    intro other member same
    cases same
    exact apart member
  have still := waiting_framed framed unaffected behind
  obtain ⟨-, result, settled', rfl⟩ := adopt_cases next
  rw [settled] at settled'
  cases settled'
  refine ⟨placed_step placed framed concerns placed.idle, ?_⟩
  have spent : Over (settle { s with adopting := update s.adopting link false } (.chained link) (outcome behaviour link)) link :=
    ⟨placed.idle, by simp [settle], by simp [settle, settled]⟩
  cases result : outcome behaviour link with
  | fulfilled =>
    rw [result] at spent still log
    refine .resolved spent result (by simp [settle]) ?_ still
    rw [script_passed placed.good result]
    exact log
  | rejected error =>
    rw [result] at spent still log
    refine .failed error [] rest rfl spent result (by simp) (by simp [settle, lastOf]) ?_ still
    rw [script_failed placed.good result]
    exact log

/-- The callback for the next link runs: the emission has arrived there. -/
theorem resolved_step (nodup : order.Nodup) (placed : Placed behaviour order s done link rest p) {a : Action}
    (spent : Over s link) (passed : outcome behaviour link = .fulfilled)
    (settled : s.settlement p = some .fulfilled) (log : s.log = script behaviour (done ++ [link]))
    (behind : Waiting s p rest) (next : step behaviour s a = some t) (moves : a ≠ .finish) :
    ∃ here left, rest = here :: left ∧ Placed behaviour order t (done ++ [link]) here left (.chained here) ∧
      Phase behaviour t (done ++ [link]) here left (.chained here) := by
  have framed := step_framed next
  obtain ⟨apart, distinct⟩ := placed_apart nodup placed
  have concerns := placed_concerns placed next
  obtain ⟨here, touched⟩ : ∃ here, a.link? = some here := by
    cases a with
    | answer k => exact ⟨k, rfl⟩
    | react k => exact ⟨k, rfl⟩
    | adopt k => exact ⟨k, rfl⟩
    | finish => exact absurd rfl moves
  have member : here ∈ rest := by
    rcases List.mem_cons.mp (concerns here touched) with rfl | later
    · exact absurd touched (over_disabled spent next)
    · exact later
  obtain ⟨rfl, ⟨left, rfl⟩, -⟩ := waiting_enabled behind member next touched
  obtain ⟨source, untouched, behind⟩ := behind
  obtain ⟨fresh, -⟩ := List.nodup_cons.mp distinct
  have unaffected : ∀ other ∈ left, Action.link? (.react here) ≠ some other := by
    intro other member same
    cases same
    exact fresh member
  have still := waiting_framed framed unaffected behind
  have good : ∀ earlier ∈ done ++ [link], outcome behaviour earlier = .fulfilled := by
    intro earlier member
    rcases List.mem_append.mp member with member | member
    · exact placed.good earlier member
    · rw [List.mem_singleton.mp member]
      exact passed
  have moved : t.waiting here = none → Placed behaviour order t (done ++ [link]) here left (.chained here) := by
    intro idle
    refine ⟨by rw [placed.split, List.append_assoc, List.singleton_append], good, ?_, idle, ?_, ?_⟩
    · intro other outside
      have elsewhere : Action.link? (.react here) ≠ some other := by
        intro same
        cases same
        exact outside List.mem_cons_self
      refine over_of_same (framed.same other elsewhere) ?_
      by_cases front : other = link
      · rw [front]
        exact spent
      · refine placed.others other ?_
        simp only [List.mem_cons, not_or] at outside ⊢
        exact ⟨front, outside⟩
    · rw [framed.pending, placed.pending]
      rfl
    · rw [framed.thrown, placed.thrown]
  refine ⟨here, left, rfl, ?_⟩
  obtain ⟨source', waits, ⟨error, rejected, -⟩ | ⟨-, ⟨rfl⟩ | ⟨rfl, -⟩⟩⟩ := react_cases next
  · rw [source] at waits
    cases waits
    rw [settled] at rejected
    cases rejected
  · refine ⟨moved (by simp [settle, record, woken]), ?_⟩
    have spent : Over (settle (record (woken s here) [.emitted here, ended here (outcome behaviour here)])
        (.chained here) (outcome behaviour here)) here := by
      refine ⟨by simp [settle, record, woken], untouched.adopting, ?_⟩
      intro returned
      have before : s.returned here = true := returned
      rw [untouched.returned] at before
      cases before
    cases result : outcome behaviour here with
    | fulfilled =>
      rw [result] at spent still
      refine .resolved spent result (by simp [settle]) ?_ still
      rw [script_passed good result]
      simp only [settle, record, woken, log, ended]
    | rejected error =>
      rw [result] at spent still
      refine .failed error [] left rfl spent result (by simp) (by simp [settle, lastOf]) ?_ still
      rw [script_failed good result]
      simp only [settle, record, woken, log, ended]
  · refine ⟨moved (by simp [record, woken]), ?_⟩
    refine .running (by simp) untouched.own (.inr ⟨rfl, by simp, untouched.chained⟩) ?_ still
    simp only [record, woken, log]

theorem failed_step (nodup : order.Nodup) (placed : Placed behaviour order s done link rest p) {a : Action}
    {error : E} {gone left : List SplitLink} (split : rest = gone ++ left) (spent : Over s link)
    (bad : outcome behaviour link = .rejected error) (passed : ∀ other ∈ gone, Over s other)
    (settled : s.settlement (lastOf p gone) = some (.rejected error))
    (log : s.log = script behaviour (done ++ link :: rest)) (behind : Waiting s (lastOf p gone) left)
    (next : step behaviour s a = some t) (moves : a ≠ .finish) :
    Placed behaviour order t done link rest p ∧ Phase behaviour t done link rest p := by
  have framed := step_framed next
  obtain ⟨apart, distinct⟩ := placed_apart nodup placed
  have concerns := placed_concerns placed next
  obtain ⟨here, touched⟩ : ∃ here, a.link? = some here := by
    cases a with
    | answer k => exact ⟨k, rfl⟩
    | react k => exact ⟨k, rfl⟩
    | adopt k => exact ⟨k, rfl⟩
    | finish => exact absurd rfl moves
  have member : here ∈ left := by
    rcases List.mem_cons.mp (concerns here touched) with rfl | later
    · exact absurd touched (over_disabled spent next)
    · rw [split] at later
      rcases List.mem_append.mp later with earlier | later
      · exact absurd touched (over_disabled (passed here earlier) next)
      · exact later
  obtain ⟨rfl, ⟨left, rfl⟩, -⟩ := waiting_enabled behind member next touched
  obtain ⟨source, untouched, behind⟩ := behind
  rw [split] at distinct apart
  obtain ⟨-, tail, disjoint⟩ := List.nodup_append.mp distinct
  obtain ⟨fresh, -⟩ := List.nodup_cons.mp tail
  have elsewhere : ∀ other, other ≠ here → Action.link? (.react here) ≠ some other := by
    intro other ne same
    cases same
    exact ne rfl
  have still := waiting_framed framed (fun other member => elsewhere other fun same => fresh (same ▸ member)) behind
  obtain ⟨source', waits, ⟨error', rejected, rfl⟩ | ⟨fulfilled, -⟩⟩ := react_cases next
  · rw [source] at waits
    cases waits
    rw [settled] at rejected
    cases rejected
    have front : link ≠ here := by
      intro same
      exact apart (List.mem_append_right _ (same ▸ List.mem_cons_self))
    refine ⟨placed_step placed framed concerns (by simp [settle, woken, front, placed.idle]), ?_⟩
    refine .failed error (gone ++ [here]) left (by rw [split, List.append_assoc, List.singleton_append])
      (over_of_same (framed.same link (elsewhere link front)) spent) bad ?_ ?_ log ?_
    · intro other earlier
      rcases List.mem_append.mp earlier with earlier | earlier
      · have ne : other ≠ here := by
          intro same
          exact disjoint other earlier here List.mem_cons_self same
        exact over_of_same (framed.same other (elsewhere other ne)) (passed other earlier)
      · rw [List.mem_singleton.mp earlier]
        refine ⟨by simp [settle, woken], untouched.adopting, ?_⟩
        intro returned
        have before : s.returned here = true := returned
        rw [untouched.returned] at before
        cases before
    · rw [lastOf_append]
      simp [lastOf, settle]
    · rw [lastOf_append]
      exact still
  · rw [source] at waits
    cases waits
    rw [settled] at fulfilled
    cases fulfilled

theorem finish_flow (flow : Flow behaviour order s) (next : finish s = some t) : Flow behaviour order t := by
  obtain ⟨-, -, p', result, pending, -, rfl⟩ := finish_cases next
  have same : ∀ link, SameAt s { s with final := some result } link := fun link => ⟨rfl, rfl, rfl, rfl, rfl⟩
  have spent : ∀ {link}, Over s link → Over { s with final := some result } link := fun before => over_of_same (same _) before
  have still : ∀ {p rest}, Waiting s p rest → Waiting { s with final := some result } p rest :=
    fun before => waiting_of_same (fun link _ => same link) before
  cases flow with
  | inline none' => simp [none'] at pending
  | chained done link rest p placed phase =>
    refine .chained done link rest p ⟨placed.split, placed.good, fun other outside => spent (placed.others other outside),
      placed.idle, placed.pending, placed.thrown⟩ ?_
    cases phase with
    | running returned open' own log behind => exact .running returned open' own log (still behind)
    | landed settled own adopting open' log behind => exact .landed settled own adopting open' log (still behind)
    | resolved before passed settled log behind => exact .resolved (spent before) passed settled log (still behind)
    | failed error gone left split before bad passed settled log behind =>
      exact .failed error gone left split (spent before) bad (fun other member => spent (passed other member)) settled log
        (still behind)

theorem step_flow (nodup : order.Nodup) (flow : Flow behaviour order s) {a : Action}
    (next : step behaviour s a = some t) : Flow behaviour order t := by
  by_cases moves : a = .finish
  · subst moves
    exact finish_flow flow next
  · cases flow with
    | inline none' spent =>
      exfalso
      cases a with
      | answer link => exact over_disabled (spent link) next rfl
      | react link => exact over_disabled (spent link) next rfl
      | adopt link => exact over_disabled (spent link) next rfl
      | finish => exact moves rfl
    | chained done link rest p placed phase =>
      cases phase with
      | running returned open' own log behind =>
        obtain ⟨placed, phase⟩ := running_step nodup placed returned open' own log behind next moves
        exact .chained done link rest p placed phase
      | landed settled own adopting open' log behind =>
        obtain ⟨placed, phase⟩ := landed_step nodup placed settled own adopting open' log behind next moves
        exact .chained done link rest p placed phase
      | resolved spent passed settled log behind =>
        obtain ⟨here, left, -, placed, phase⟩ := resolved_step nodup placed spent passed settled log behind next moves
        exact .chained (done ++ [link]) here left (.chained here) placed phase
      | failed error gone left split spent bad passed settled log behind =>
        obtain ⟨placed, phase⟩ := failed_step nodup placed split spent bad passed settled log behind next moves
        exact .chained done link rest p placed phase

end Flow

end SplitStreams
