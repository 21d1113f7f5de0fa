import TsServiceLib.Library.Transitions
import TsServiceLib.Config.ConfigStore

/-!
The loader that polls the configuration files. A poll reads the files, loads a
candidate, reads the files again and publishes if nothing has changed, and it
remembers the snapshot it has dealt with so that the same content is not dealt
with twice. It remembers it after a failure too, and a failure need not be the
fault of the content.
-/
namespace ConfigLoaders
open Transitions ConfigStores

/-- The contents of the files, in the order of the paths. -/
abbrev Snapshot := List (List UInt8)

def snapshotsEqual (left right : Snapshot) : Bool :=
  left.length == right.length && (left.zip right).all fun (value, candidate) => value == candidate

theorem snapshotsEqual_iff (left right : Snapshot) : snapshotsEqual left right = true ↔ left = right := by
  unfold snapshotsEqual
  induction left generalizing right with
  | nil => cases right <;> simp
  | cons value rest ih =>
    cases right with
    | nil => simp
    | cons candidate others =>
      have tail := ih others
      simp only [Bool.and_eq_true, beq_iff_eq] at tail
      simp only [List.length_cons, List.zip_cons_cons, List.all_cons, Bool.and_eq_true, beq_iff_eq, Nat.add_right_cancel_iff,
        List.cons.injEq, ← tail]
      tauto

inductive Phase where
  | created | running | stopped
  deriving DecidableEq

/-- What the loader awaits: the first read, the load of a candidate with the
    snapshot read before it, the second read with both. -/
inductive Stage (C : Type) where
  | idle
  | reading
  | loading (before : Snapshot)
  | rereading (before : Snapshot) (candidate : C)

/-- `starting` says that it is `start` that awaits, not a poll. The files are
    part of the state; `steady` says that nobody has written to them since the
    operation in progress began. -/
structure RuntimeConfigLoader (C : Type) where
  store : RuntimeConfigStore C
  files : Snapshot
  observed : Option Snapshot := none
  readFailureRecorded : Bool := false
  success : Nat := 0
  error : Nat := 0
  state : Phase := .created
  stage : Stage C := .idle
  starting : Bool := false
  steady : Bool := true

variable {C E : Type}

/-- The content the timer finds again is passed over. -/
def alreadyObserved (l : RuntimeConfigLoader C) (before : Snapshot) : Bool :=
  match l.observed with
  | some observed => snapshotsEqual observed before
  | none => false

/-- What awaits next, from the moment it is called. -/
def await (l : RuntimeConfigLoader C) (stage : Stage C) : RuntimeConfigLoader C :=
  { l with stage := stage, steady := true }

/-- `start` rejects; the loader is as it was. -/
def startFails (l : RuntimeConfigLoader C) : RuntimeConfigLoader C := { l with stage := .idle, starting := false }

/-- The `catch` of `poll`. -/
def pollFails (l : RuntimeConfigLoader C) (before : Snapshot) : RuntimeConfigLoader C :=
  { l with observed := some before, error := l.error + 1, stage := .idle }

def fails (l : RuntimeConfigLoader C) (before : Snapshot) : RuntimeConfigLoader C :=
  if l.starting then startFails l else pollFails l before

def readFails (l : RuntimeConfigLoader C) : RuntimeConfigLoader C :=
  if l.starting then startFails l
  else if l.readFailureRecorded then { l with stage := .idle }
  else { l with readFailureRecorded := true, error := l.error + 1, stage := .idle }

def reads (l : RuntimeConfigLoader C) (before : Snapshot) : RuntimeConfigLoader C :=
  if l.starting then await l (.loading before)
  else if alreadyObserved l before then { l with readFailureRecorded := false, stage := .idle }
  else await { l with readFailureRecorded := false } (.loading before)

/-- What follows the second read. -/
def rereads (l : RuntimeConfigLoader C) (before after : Snapshot) (candidate : C) (responses : Responses C E) :
    RuntimeConfigLoader C :=
  if snapshotsEqual before after then
    let published := publish responses l.store candidate
    let swapped := { l with store := published.store }
    if published.error.isSome then fails swapped before
    else if l.starting then
      { swapped with observed := some after, state := .running, starting := false, stage := .idle }
    else { swapped with observed := some after, success := l.success + 1, stage := .idle }
  else if l.starting then await l .reading
  else { l with stage := .idle }

/-- `write` is somebody else changing the files; `tick` is the timer. -/
inductive Action (C E : Type) where
  | write (content : Snapshot)
  | start
  | tick
  | readFails
  | reads (seen : Snapshot)
  | loadFails
  | loads (candidate : C)
  | rereadFails
  | rereads (seen : Snapshot) (responses : Responses C E)
  | stop

/-- `loaded` is what the source loads from files that hold still, if it can be
    loaded. A read or a load of files that somebody writes to meanwhile may see
    anything. -/
def step [DecidableEq C] (loaded : Snapshot → Option C) (l : RuntimeConfigLoader C) :
    Action C E → Option (RuntimeConfigLoader C)
  | .write content => some { l with files := content, steady := false }
  | .start =>
    match l.state, l.stage with
    | .created, .idle => some (await { l with starting := true } .reading)
    | _, _ => none
  | .tick =>
    match l.state, l.stage with
    | .running, .idle => some (await l .reading)
    | _, _ => none
  | .readFails =>
    match l.stage with
    | .reading => some (readFails l)
    | _ => none
  | .reads seen =>
    match l.stage with
    | .reading => if l.steady = true ∧ seen ≠ l.files then none else some (reads l seen)
    | _ => none
  | .loadFails =>
    match l.stage with
    | .loading before => some (fails l before)
    | _ => none
  | .loads candidate =>
    match l.stage with
    | .loading before =>
      if l.steady = true ∧ loaded l.files ≠ some candidate then none else some (await l (.rereading before candidate))
    | _ => none
  | .rereadFails =>
    match l.stage with
    | .rereading before _ => some (fails l before)
    | _ => none
  | .rereads seen responses =>
    match l.stage with
    | .rereading before candidate =>
      if l.steady = true ∧ seen ≠ l.files then none else some (rereads l before seen candidate responses)
    | _ => none
  | .stop => some { l with state := .stopped }

/-- Nobody writes to the files, and reads, loads and publications succeed. -/
def Calm (l : RuntimeConfigLoader C) : Action C E → Prop
  | .write _ | .readFails | .loadFails | .rereadFails => False
  | .rereads _ responses => ∀ before candidate, l.stage = .rereading before candidate →
      (publish responses l.store candidate).error = none
  | _ => True

/-- While `start` awaits, no timer runs. -/
def Timed (l : RuntimeConfigLoader C) : Prop := l.starting = true → l.state ≠ .running

/-- The configuration in force is the one of the content, and the loader is
    about to find that out or to make it so. -/
def Arriving (content : Snapshot) (config : C) (l : RuntimeConfigLoader C) : Prop :=
  match l.stage with
  | .idle => l.store.current = config
  | .reading => l.steady = true ∧ (l.observed = some content → l.store.current = config)
  | .loading before => l.steady = true ∧ before = content
  | .rereading before candidate => l.steady = true ∧ before = content ∧ candidate = config

/-- The loader takes the content for one it has dealt with. -/
def Passing (content : Snapshot) (config : C) (l : RuntimeConfigLoader C) : Prop :=
  l.observed = some content ∧ l.store.current ≠ config ∧ (l.stage = .idle ∨ (l.stage = .reading ∧ l.steady = true))

/-- What calm steps of a loader that has been started leave as it is. -/
structure Settled (content : Snapshot) (l : RuntimeConfigLoader C) : Prop where
  files : l.files = content
  starting : l.starting = false
  begun : l.state ≠ .created

section Runs
variable {l m : RuntimeConfigLoader C}

theorem fails_timed (timed : Timed l) (before : Snapshot) : Timed (fails l before) := by
  unfold fails
  split
  · nofun
  · exact timed

theorem rereads_timed (timed : Timed l) (before after : Snapshot) (candidate : C) (responses : Responses C E) :
    Timed (rereads l before after candidate responses) := by
  unfold rereads
  split
  · simp only
    split
    · have swapped : Timed { l with store := (publish responses l.store candidate).store } := timed
      exact fails_timed swapped before
    · split
      · nofun
      · exact timed
  · split
    · exact timed
    · exact timed

theorem alreadyObserved_iff (before : Snapshot) : alreadyObserved l before = true ↔ l.observed = some before := by
  unfold alreadyObserved
  cases l.observed with
  | none => simp
  | some observed => simp [snapshotsEqual_iff]

/-- A publication that throws nothing has swapped the candidate in. -/
theorem publish_current {responses : Responses C E} {store : RuntimeConfigStore C} {candidate : C}
    (quiet : (publish responses store candidate).error = none) : (publish responses store candidate).store.current = candidate := by
  by_cases down : TurnedDown responses store candidate
  · exact absurd quiet (publish_turnedDown down).2.1
  · rw [publish_swapped down]

variable {loaded : Snapshot → Option C} {content : Snapshot} {config : C}

/-- What a calm step of a started loader does. -/
inductive CalmMove (loaded : Snapshot → Option C) (l : RuntimeConfigLoader C) : RuntimeConfigLoader C → Prop where
  | tick (idle : l.stage = .idle) : CalmMove loaded l (await l .reading)
  | passes (reading : l.stage = .reading) (seen : Snapshot) (true_to : l.steady = true → seen = l.files)
      (known : l.observed = some seen) : CalmMove loaded l { l with readFailureRecorded := false, stage := .idle }
  | reads (reading : l.stage = .reading) (seen : Snapshot) (true_to : l.steady = true → seen = l.files)
      (fresh : l.observed ≠ some seen) : CalmMove loaded l (await { l with readFailureRecorded := false } (.loading seen))
  | loads (before : Snapshot) (candidate : C) (loading : l.stage = .loading before)
      (true_to : l.steady = true → loaded l.files = some candidate) :
      CalmMove loaded l (await l (.rereading before candidate))
  | publishes (before : Snapshot) (candidate : C) (rereading : l.stage = .rereading before candidate)
      (store : RuntimeConfigStore C) (current : store.current = candidate) :
      CalmMove loaded l { l with store := store, observed := some before, success := l.success + 1, stage := .idle }
  | unstable (before seen : Snapshot) (candidate : C) (rereading : l.stage = .rereading before candidate)
      (true_to : l.steady = true → seen = l.files) (torn : before ≠ seen) : CalmMove loaded l { l with stage := .idle }
  | stop : CalmMove loaded l { l with state := .stopped }

theorem settled_move (settled : Settled content l) (move : CalmMove loaded l m) : Settled content m := by
  obtain ⟨files, starting, begun⟩ := settled
  cases move with
  | tick idle => exact ⟨files, starting, begun⟩
  | passes reading seen true_to known => exact ⟨files, starting, begun⟩
  | reads reading seen true_to fresh => exact ⟨files, starting, begun⟩
  | loads before candidate loading true_to => exact ⟨files, starting, begun⟩
  | publishes before candidate rereading store current => exact ⟨files, starting, begun⟩
  | unstable before seen candidate rereading true_to torn => exact ⟨files, starting, begun⟩
  | stop => exact ⟨files, starting, nofun⟩

theorem arriving_move (settled : Settled content l) (valid : loaded content = some config) (arriving : Arriving content config l)
    (move : CalmMove loaded l m) : Arriving content config m := by
  have files := settled.files
  cases move with
  | tick idle =>
    simp only [Arriving, idle] at arriving
    exact ⟨rfl, fun _ => arriving⟩
  | passes reading seen true_to known =>
    simp only [Arriving, reading] at arriving
    obtain ⟨steady, current⟩ := arriving
    rw [true_to steady, files] at known
    exact current known
  | reads reading seen true_to fresh =>
    simp only [Arriving, reading] at arriving
    exact ⟨rfl, (true_to arriving.1).trans files⟩
  | loads before candidate loading true_to =>
    simp only [Arriving, loading] at arriving
    obtain ⟨steady, same⟩ := arriving
    have found := true_to steady
    rw [files, valid] at found
    cases found
    exact ⟨rfl, same, rfl⟩
  | publishes before candidate rereading store current =>
    simp only [Arriving, rereading] at arriving
    exact current.trans arriving.2.2
  | unstable before seen candidate rereading true_to torn =>
    simp only [Arriving, rereading] at arriving
    obtain ⟨steady, same, _⟩ := arriving
    rw [true_to steady, files] at torn
    exact absurd same torn
  | stop => exact arriving

theorem passing_move (settled : Settled content l) (passing : Passing content config l) (move : CalmMove loaded l m) :
    Passing content config m := by
  obtain ⟨known, other, stage⟩ := passing
  cases move with
  | tick idle => exact ⟨known, other, .inr ⟨rfl, rfl⟩⟩
  | passes reading seen true_to found => exact ⟨known, other, .inl rfl⟩
  | reads reading seen true_to fresh =>
    rcases stage with idle | ⟨_, steady⟩
    · rw [idle] at reading
      cases reading
    · rw [true_to steady, settled.files] at fresh
      exact absurd known fresh
  | loads before candidate loading true_to =>
    rcases stage with idle | ⟨reading, _⟩
    · rw [idle] at loading
      cases loading
    · rw [reading] at loading
      cases loading
  | publishes before candidate rereading store current =>
    rcases stage with idle | ⟨reading, _⟩
    · rw [idle] at rereading
      cases rereading
    · rw [reading] at rereading
      cases rereading
  | unstable before seen candidate rereading true_to torn => exact ⟨known, other, .inl rfl⟩
  | stop => exact ⟨known, other, stage⟩

variable [DecidableEq C]

theorem step_timed {a : Action C E} (timed : Timed l) (next : step loaded l a = some m) : Timed m := by
  cases a with
  | write content =>
    cases next
    exact timed
  | start =>
    simp only [step] at next
    split at next
    · rename_i created _
      cases next
      intro _
      simp [await, created]
    · cases next
  | tick =>
    simp only [step] at next
    split at next
    · cases next
      exact timed
    · cases next
  | readFails =>
    simp only [step] at next
    split at next
    · cases next
      unfold readFails
      split
      · nofun
      · split <;> exact timed
    · cases next
  | reads seen =>
    simp only [step] at next
    split at next
    · split at next
      · cases next
      · cases next
        unfold reads
        split
        · exact timed
        · split <;> exact timed
    · cases next
  | loadFails =>
    simp only [step] at next
    split at next
    · cases next
      exact fails_timed timed _
    · cases next
  | loads candidate =>
    simp only [step] at next
    split at next
    · split at next
      · cases next
      · cases next
        exact timed
    · cases next
  | rereadFails =>
    simp only [step] at next
    split at next
    · cases next
      exact fails_timed timed _
    · cases next
  | rereads seen responses =>
    simp only [step] at next
    split at next
    · split at next
      · cases next
      · cases next
        exact rereads_timed timed _ _ _ _
    · cases next
  | stop =>
    cases next
    exact fun _ => nofun

theorem calm_move {a : Action C E} (starting : l.starting = false) (begun : l.state ≠ .created) (calm : Calm l a)
    (next : step loaded l a = some m) : CalmMove loaded l m := by
  have running : ¬l.starting = true := by simp [starting]
  cases a with
  | write content => exact calm.elim
  | start =>
    simp only [step] at next
    split at next
    · rename_i created _
      exact absurd created begun
    · cases next
  | tick =>
    simp only [step] at next
    split at next
    · rename_i idle
      cases next
      exact .tick idle
    · cases next
  | readFails => exact calm.elim
  | reads seen =>
    simp only [step] at next
    split at next
    · rename_i reading
      split at next
      · cases next
      · rename_i allowed
        have true_to : l.steady = true → seen = l.files := by
          intro steady
          by_contra other
          exact allowed ⟨steady, other⟩
        cases next
        unfold reads
        rw [if_neg running]
        split
        · rename_i known
          exact .passes reading seen true_to ((alreadyObserved_iff seen).mp known)
        · rename_i fresh
          exact .reads reading seen true_to fun known => fresh ((alreadyObserved_iff seen).mpr known)
    · cases next
  | loadFails => exact calm.elim
  | loads candidate =>
    simp only [step] at next
    split at next
    · rename_i before loading
      split at next
      · cases next
      · rename_i allowed
        cases next
        apply CalmMove.loads before candidate loading
        intro steady
        by_contra other
        exact allowed ⟨steady, other⟩
    · cases next
  | rereadFails => exact calm.elim
  | rereads seen responses =>
    simp only [step] at next
    split at next
    · rename_i before candidate rereading
      split at next
      · cases next
      · rename_i allowed
        cases next
        have quiet := calm before candidate rereading
        have kept : ¬(publish responses l.store candidate).error.isSome = true := by simp [quiet]
        simp only [rereads]
        split
        · rename_i same
          rw [← (snapshotsEqual_iff _ _).mp same]
          exact .publishes before candidate rereading _ (publish_current quiet)
        · rename_i torn
          apply CalmMove.unstable before seen candidate rereading
          · intro steady
            by_contra other
            exact allowed ⟨steady, other⟩
          · exact fun same => torn ((snapshotsEqual_iff _ _).mpr same)
    · cases next
  | stop =>
    cases next
    exact .stop

theorem calm_run (Inv : RuntimeConfigLoader C → Prop) (settled : Settled content l) (start : Inv l)
    (preserved : ∀ {k j : RuntimeConfigLoader C}, Settled content k → Inv k → CalmMove loaded k j → Inv j)
    (run : Steps (step (E := E) loaded) Calm l m) : Inv m := by
  have both : Settled content m ∧ Inv m := by
    apply steps_invariant (fun k => Settled content k ∧ Inv k) ?_ run ⟨settled, start⟩
    intro k a j here calm next
    have move := calm_move here.1.starting here.1.begun calm next
    exact ⟨settled_move here.1 move, preserved here.1 here.2 move⟩
  exact both.2

end Runs

/- From the moment a poll begins the files hold still with content that can be
   loaded, and everything succeeds. Once the loader is idle again its store holds
   that configuration, exactly if it did so when the poll began or the loader did
   not remember the content then. -/
theorem reload_reached {C E : Type} [DecidableEq C] {loaded : Snapshot → Option C} {content : Snapshot} {config : C}
    {s t u v : RuntimeConfigLoader C} (fresh : s.state = .created ∧ s.stage = .idle ∧ s.starting = false)
    (history : Steps (step (E := E) loaded) Any s t) (files : t.files = content) (valid : loaded content = some config)
    (begins : step (E := E) loaded t .tick = some u) (quiet : Steps (step (E := E) loaded) Calm u v)
    (completed : v.stage = .idle) :
    v.store.current = config ↔ (t.observed = some content → t.store.current = config) := by
  have timed : Timed t := by
    apply steps_invariant Timed (fun _ _ _ held _ next => step_timed held next) history
    intro starting
    rw [fresh.2.2] at starting
    cases starting
  simp only [step] at begins
  split at begins
  · rename_i running idle
    cases begins
    have starting : t.starting = false := by
      cases here : t.starting with
      | false => rfl
      | true => exact absurd running (timed here)
    have settled : Settled content (await t .reading) := ⟨files, starting, by simp [await, running]⟩
    by_cases condition : t.observed = some content → t.store.current = config
    · have arriving : Arriving content config (await t .reading) := ⟨rfl, condition⟩
      have arrived := calm_run (Arriving content config) settled arriving
        (fun here held move => arriving_move here valid held move) quiet
      simp only [Arriving, completed] at arrived
      exact iff_of_true arrived condition
    · obtain ⟨known, other⟩ := Classical.not_imp.mp condition
      have passing : Passing content config (await t .reading) := ⟨known, other, .inr ⟨rfl, rfl⟩⟩
      have passed := calm_run (Passing content config) settled passing
        (fun here held move => passing_move here held move) quiet
      exact iff_of_false passed.2.1 condition
  · cases begins

/-- The first content with its configuration, and the second with its own. -/
def twoContents : Snapshot → Option Nat
  | [[1]] => some 1
  | [[2]] => some 2
  | _ => none

/-- A read that fails leaves the content to the next poll. -/
theorem reload_reached_retry :
    ∃ t u v : RuntimeConfigLoader Nat, t.files = [[2]] ∧ t.error = 1 ∧ step (E := String) twoContents t .tick = some u ∧
      Steps (step (E := String) twoContents) Calm u v ∧ v.stage = .idle ∧
      (v.store.current = 2 ↔ (t.observed = some [[2]] → t.store.current = 2)) := by
  let silent : Responses Nat String := ⟨fun _ _ _ => none, fun _ _ => none⟩
  let s : RuntimeConfigLoader Nat := { store := { current := 1 }, files := [[1]] }
  let t : RuntimeConfigLoader Nat :=
    { s with files := [[2]], observed := some [[1]], readFailureRecorded := true, error := 1, state := .running, steady := false }
  let loading : RuntimeConfigLoader Nat := await { t with readFailureRecorded := false } (.loading [[2]])
  let rereading : RuntimeConfigLoader Nat := await loading (.rereading [[2]] 2)
  let v : RuntimeConfigLoader Nat :=
    { rereading with store := { current := 2 }, observed := some [[2]], success := 1, stage := .idle }
  have history : exec (step (E := String) twoContents) s
      [.start, .reads [[1]], .loads 1, .rereads [[1]] silent, .write [[2]], .tick, .readFails, .write [[2]]] = some t := by rfl
  have first : Steps (step (E := String) twoContents) Calm (await t .reading) loading :=
    .tail (a := .reads [[2]]) (.refl _) trivial rfl
  have second : Steps (step (E := String) twoContents) Calm (await t .reading) rereading :=
    .tail (a := .loads 2) first trivial rfl
  have quiet : Steps (step (E := String) twoContents) Calm (await t .reading) v := by
    apply Steps.tail (a := .rereads [[2]] silent) second ?_ rfl
    intro before candidate _
    rfl
  exact ⟨t, _, v, rfl, rfl, rfl, quiet, rfl, reload_reached ⟨rfl, rfl, rfl⟩ (exec_steps history) rfl rfl rfl quiet rfl⟩

/-- The load of the second content fails once. The content stays as it is and
    every poll from then on passes it over. -/
theorem reload_lost :
    ∃ s t u v : RuntimeConfigLoader Nat, (s.state = .created ∧ s.stage = .idle ∧ s.starting = false) ∧
      Steps (step (E := String) twoContents) Any s t ∧ t.files = [[2]] ∧ twoContents [[2]] = some 2 ∧
      step (E := String) twoContents t .tick = some u ∧ Steps (step (E := String) twoContents) Calm u v ∧
      v.stage = .idle ∧ v.store.current = 1 := by
  let silent : Responses Nat String := ⟨fun _ _ _ => none, fun _ _ => none⟩
  let s : RuntimeConfigLoader Nat := { store := { current := 1 }, files := [[1]] }
  let t : RuntimeConfigLoader Nat :=
    { s with files := [[2]], observed := some [[2]], success := 0, error := 1, state := .running }
  have history : exec (step (E := String) twoContents) s
      [.start, .reads [[1]], .loads 1, .rereads [[1]] silent, .write [[2]], .tick, .reads [[2]], .loadFails] = some t := by rfl
  exact ⟨s, t, _, t, ⟨rfl, rfl, rfl⟩, exec_steps history, rfl, rfl, rfl,
    .tail (a := .reads [[2]]) (.refl _) trivial rfl, rfl, rfl⟩

end ConfigLoaders
