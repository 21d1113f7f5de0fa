import TsServiceLib.Source.RequestProtocol

/-!
What one step of an endpoint does to one request. A step moves at most one of
them, and the results of the stream reach only a request that was entered; so
what every move of a request keeps holds of every request of every run.
-/
namespace Sources
open Transitions

namespace Request

inductive Moves (source : Source) (hasResult : Bool) : Request → Request → Prop where
  | beginFails {r} (rest : r.rest = .beginning) : Moves source hasResult r (r.note .beginFailed).finish
  | refused {r} (rest : r.rest = .beginning) (enters : source.enters hasResult = true) :
    Moves source hasResult r ((r.note .requestStart).refuse source)
  | entered {r} (rest : r.rest = .beginning) (enters : source.enters hasResult = true) :
    Moves source hasResult r
      (({ r.note .requestStart with entered := true }.noteIf hasResult .pendingAdd).firstMessage source)
  | started {r} (rest : r.rest = .beginning) (enters : source.enters hasResult = false) :
    Moves source hasResult r ((r.note .requestStart).firstMessage source)
  | message {r} (rest : r.rest = .receiving) :
    Moves source hasResult r { r with rest := .consuming, handedOut := true }
  | noMessage {r} (rest : r.rest = .receiving) : Moves source hasResult r { r with rest := .atEof }
  | fails {r} (rest : r.rest = .receiving ∨ r.rest = .consuming ∨ r.rest = .atEof) :
    Moves source hasResult r (r.fail source .handler)
  | next {r} (rest : r.rest = .consuming) (streams : source.streamsIn = true) :
    Moves source hasResult r { r with rest := .receiving }
  | toEof {r} (rest : r.rest = .consuming) (grpc : source.grpc = true) :
    Moves source hasResult r { r with rest := .atEof }
  | consumed {r} (rest : r.rest = .consuming ∨ r.rest = .atEof) :
    Moves source hasResult r (r.consumed source hasResult)
  | hearsDone {r} (rest : r.rest = .waiting) (completed : r.completed = true) (race : r.race = none) :
    Moves source hasResult r { r with race := some true }
  | waited {r} (rest : r.rest = .waiting) (race : r.race = some true) :
    Moves source hasResult r (r.leave source)
  | waitFails {r} (rest : r.rest = .waiting) (race : r.race = some false) :
    Moves source hasResult r (r.waitFails source)
  | retires {r} (rest : r.rest = .retiring) (resolved : r.resolved = true) :
    Moves source hasResult r (r.finishRetire source)
  | goesOn {r completed} (rest : r.rest = .retired completed) (grpc : source.grpc = false) :
    Moves source hasResult r ((r.excuse completed).note .pendingRemove).callEnd
  | goesOnEntered {r completed} (rest : r.rest = .retired completed) (grpc : source.grpc = true) :
    Moves source hasResult r (r.excuse completed).callEnd
  | ends {r r'} (succeeds : Bool) (ended : r.ends source hasResult succeeds = some r') :
    Moves source hasResult r r'
  | closes {r} (rest : r.rest = .closing) : Moves source hasResult r (r.close source hasResult)
  | delivers {r} (messageId : String) (entered : r.entered = true) :
    Moves source hasResult r (r.deliver messageId)
  | callbackEnds {r r'} (c : Running) (remove : Bool) (ended : r.callbackEnds c remove = some r') :
    Moves source hasResult r r'
  | setsCallback {r} (messageId : String) (callback : Nat) :
    Moves source hasResult r (r.setResultCallback source messageId callback)
  | done {r} : Moves source hasResult r (r.done source)
  | sends {r} : Moves source hasResult r (r.send source)
  | aborts {r} (cancelled : r.cancelled = false) : Moves source hasResult r r.abort

theorem mem_note {r : Request} {e e' : Event} (mem : e' ∈ (r.note e).log) (other : e' ≠ e) : e' ∈ r.log :=
  (List.mem_cons.mp mem).resolve_left other

section Entered
variable {source : Source} {hasResult : Bool} (r : Request)

@[simp] theorem note_entered (e : Event) : (r.note e).entered = r.entered := rfl

@[simp] theorem noteIf_entered (condition : Bool) (e : Event) : (r.noteIf condition e).entered = r.entered := by
  unfold noteIf
  split <;> rfl

@[simp] theorem finish_entered : r.finish.entered = r.entered := noteIf_entered r r.sampled .spanEnd

@[simp] theorem done_entered : (r.done source).entered = r.entered := by
  unfold done
  split <;> rfl

@[simp] theorem send_entered : (r.send source).entered = r.entered := by
  unfold send
  split
  · rfl
  · split
    · rfl
    · exact done_entered _

@[simp] theorem setResultCallback_entered (messageId : String) (callback : Nat) :
    (r.setResultCallback source messageId callback).entered = r.entered := by
  unfold setResultCallback
  split <;> rfl

@[simp] theorem finishRetire_entered : (r.finishRetire source).entered = r.entered := rfl

@[simp] theorem retire_entered : (r.retire source).entered = r.entered := by
  unfold retire
  split <;> rfl

@[simp] theorem callEnd_entered : r.callEnd.entered = r.entered := rfl

@[simp] theorem leave_entered : (r.leave source).entered = r.entered := by
  unfold leave
  split
  · exact retire_entered r
  · rfl

@[simp] theorem fail_entered (error : RequestError) : (r.fail source error).entered = r.entered :=
  leave_entered _

@[simp] theorem waitFails_entered : (r.waitFails source).entered = r.entered := fail_entered _ _

@[simp] theorem excuse_entered (completed : Bool) : (r.excuse completed).entered = r.entered := by
  unfold excuse
  split <;> rfl

@[simp] theorem wait_entered : (r.wait source).entered = r.entered := by
  unfold wait
  split
  · exact waitFails_entered r
  · split
    · exact leave_entered r
    · rfl

@[simp] theorem consumed_entered : (r.consumed source hasResult).entered = r.entered := by
  cases source <;> cases hasResult <;> simp [consumed]

@[simp] theorem firstMessage_entered : (r.firstMessage source).entered = r.entered := by
  unfold firstMessage
  split <;> rfl

@[simp] theorem refuse_entered : (r.refuse source).entered = r.entered := by
  cases source <;> rfl

@[simp] theorem close_entered : (r.close source hasResult).entered = r.entered := by
  simp [close]

@[simp] theorem deliver_entered (messageId : String) : (r.deliver messageId).entered = r.entered := by
  unfold deliver
  split
  · rfl
  · split <;> rfl

theorem ends_entered {r r' : Request} {succeeds : Bool} (ended : r.ends source hasResult succeeds = some r') :
    r'.entered = r.entered := by
  unfold ends at ended
  split at ended
  · cases ended
    split <;> simp
  · dsimp only at ended
    split at ended
    · cases ended
      split <;> rfl
    · cases ended
      rw [close_entered]
      split <;> rfl
  · cases ended

theorem callbackEnds_entered {r r' : Request} {c : Running} {remove : Bool}
    (ended : r.callbackEnds c remove = some r') : r'.entered = r.entered := by
  unfold callbackEnds at ended
  split at ended
  · cases ended
    rfl
  · cases ended

theorem moves_entered {r r' : Request} (moves : Moves source hasResult r r') (entered : r.entered = true) :
    r'.entered = true := by
  cases moves with
  | ends succeeds ended => rw [ends_entered ended, entered]
  | callbackEnds c remove ended => rw [callbackEnds_entered ended, entered]
  | _ => simp [entered, abort]

end Entered

end Request

namespace Requests
variable {source : Source} {hasResult : Bool} {t t' : Requests} {i : Nat} {r : Request}

def PendingOk (t : Requests) : Prop :=
  ∀ streamId i, t.pending streamId = some i → i < t.count ∧ (t.request i).entered = true

/-- A step leaves the request `i` alone or moves it. -/
def Moved (source : Source) (hasResult : Bool) (t t' : Requests) (i : Nat) : Prop :=
  t'.request i = t.request i ∨ Request.Moves source hasResult (t.request i) (t'.request i)

theorem set_moved (moves : Request.Moves source hasResult (t.request i) r) (j : Nat) :
    Moved source hasResult t (t.set i r) j := by
  by_cases same : j = i
  · subst same
    right
    simpa only [set, Function.update_self] using moves
  · left
    simp only [set, Function.update_of_ne same]

theorem move_moved {rest : Rest} {f : Request → Request} (step : t.move i rest f = some t')
    (moves : (t.request i).rest = rest → Request.Moves source hasResult (t.request i) (f (t.request i))) (j : Nat) :
    Moved source hasResult t t' j := by
  unfold move at step
  split at step
  · rename_i guard
    cases step
    exact set_moved (moves guard.2) j
  · cases step

theorem touch_moved {f : Request → Request} (step : t.touch i f = some t')
    (moves : Request.Moves source hasResult (t.request i) (f (t.request i))) (j : Nat) :
    Moved source hasResult t t' j := by
  unfold touch at step
  split at step
  · cases step
    exact set_moved moves j
  · cases step

theorem forget_request (t : Requests) : (t.forget source i).request = t.request := by
  unfold forget
  split <;> rfl

theorem forget_count (t : Requests) : (t.forget source i).count = t.count := by
  unfold forget
  split <;> rfl

theorem forget_pending {streamId : String} {j : Nat} (entry : (t.forget source i).pending streamId = some j) :
    t.pending streamId = some j := by
  unfold forget at entry
  split at entry
  · dsimp only at entry
    rw [Function.update_apply] at entry
    split at entry
    · cases entry
    · exact entry
  · exact entry

theorem step_moved {a : RequestAction} (pending : t.PendingOk) (step : t.step source hasResult a = some t')
    (j : Nat) (known : j < t.count) : Moved source hasResult t t' j := by
  cases a with
  | accept streamId cancelled sampled =>
    cases step
    left
    simp only [accept, set, Function.update_of_ne (Nat.ne_of_lt known)]
  | begins i succeeds =>
    simp only [Requests.step, begins] at step
    split at step
    · rename_i guard
      split at step
      · cases step
        exact set_moved (.beginFails guard.2) j
      · split at step
        · rename_i enters
          split at step
          · cases step
            exact set_moved (.refused guard.2 enters) j
          · cases step
            exact set_moved (.entered guard.2 enters) j
        · rename_i enters
          cases step
          exact set_moved (.started guard.2 (Bool.eq_false_iff.mpr enters)) j
    · cases step
  | receives i received =>
    simp only [Requests.step, receives] at step
    cases received with
    | message => exact move_moved step (fun rest => .message rest) j
    | eof => exact move_moved step (fun rest => .noMessage rest) j
    | error => exact move_moved step (fun rest => .fails (.inl rest)) j
  | consumes i succeeds =>
    simp only [Requests.step, consumes] at step
    apply move_moved step
    intro rest
    split
    · exact .fails (.inr (.inl rest))
    · split
      · rename_i streams
        exact .next rest streams
      · split
        · rename_i grpc
          exact .toEof rest grpc
        · exact .consumed (.inl rest)
  | eof i succeeds =>
    simp only [Requests.step, eof] at step
    apply move_moved step
    intro rest
    split
    · exact .consumed (.inr rest)
    · exact .fails (.inr (.inr rest))
  | hearsDone i =>
    simp only [Requests.step, hearsDone] at step
    split at step
    · rename_i guard
      exact move_moved step (fun rest => .hearsDone rest guard.1 guard.2) j
    · cases step
  | waits i =>
    simp only [Requests.step, waits] at step
    split at step
    · cases step
    · rename_i race
      exact move_moved step (fun rest => .waited rest race) j
    · rename_i race
      exact move_moved step (fun rest => .waitFails rest race) j
  | retires i =>
    simp only [Requests.step, retires] at step
    split at step
    · rename_i resolved
      exact move_moved step (fun rest => .retires rest resolved) j
    · cases step
  | goesOn i =>
    simp only [Requests.step, goesOn] at step
    split at step
    · rename_i completed rest
      split at step
      · split at step
        · rename_i grpc
          cases step
          exact set_moved (.goesOnEntered rest grpc) j
        · rename_i grpc
          cases step
          exact set_moved (.goesOn rest (Bool.eq_false_iff.mpr grpc)) j
      · cases step
    · cases step
  | ends i succeeds =>
    simp only [Requests.step, ends] at step
    split at step
    · obtain ⟨r, ended, same⟩ := Option.map_eq_some_iff.mp step
      rw [Moved, ← same, forget_request]
      exact set_moved (.ends succeeds ended) j
    · cases step
  | closes i =>
    obtain ⟨closed, move, same⟩ := Option.map_eq_some_iff.mp step
    rw [Moved, ← same, forget_request]
    exact move_moved move (fun rest => .closes rest) j
  | result streamId messageId =>
    simp only [Requests.step, result] at step
    cases step
    split
    · exact .inl rfl
    · rename_i i entry
      exact set_moved (.delivers messageId (pending streamId i entry).2) j
  | callbackEnds i c remove =>
    simp only [Requests.step] at step
    split at step
    · obtain ⟨r, ended, same⟩ := Option.map_eq_some_iff.mp step
      rw [← same]
      exact set_moved (.callbackEnds c remove ended) j
    · cases step
  | setResultCallback i messageId callback =>
    simp only [Requests.step] at step
    exact touch_moved step (.setsCallback messageId callback) j
  | done i =>
    simp only [Requests.step] at step
    exact touch_moved step .done j
  | send i =>
    simp only [Requests.step] at step
    split at step
    · exact touch_moved step .sends j
    · cases step
  | abort i =>
    simp only [Requests.step, abort] at step
    split at step
    · rename_i guard
      cases step
      exact set_moved (.aborts guard.2) j
    · cases step

theorem move_table {rest : Rest} {f : Request → Request} (step : t.move i rest f = some t') :
    t'.count = t.count ∧ t'.pending = t.pending := by
  unfold move at step
  split at step
  · cases step
    exact ⟨rfl, rfl⟩
  · cases step

theorem touch_table {f : Request → Request} (step : t.touch i f = some t') :
    t'.count = t.count ∧ t'.pending = t.pending := by
  unfold touch at step
  split at step
  · cases step
    exact ⟨rfl, rfl⟩
  · cases step

/-- A step accepts at most one request, under the next number. -/
def Counted (t t' : Requests) : Prop :=
  t'.count = t.count ∨
    t'.count = t.count + 1 ∧ ∃ streamId cancelled sampled, t'.request t.count = .fresh streamId cancelled sampled

/-- An entry was there before or is that of a request that has been entered. -/
def Entries (t t' : Requests) : Prop :=
  ∀ streamId i, t'.pending streamId = some i →
    t.pending streamId = some i ∨ i < t.count ∧ (t'.request i).entered = true

theorem entries_same (same : t'.pending = t.pending) : Entries t t' := by
  intro streamId i entry
  rw [same] at entry
  exact .inl entry

theorem entries_removed {streamId : String} (removed : t'.pending = Function.update t.pending streamId none) :
    Entries t t' := by
  intro streamId' i entry
  rw [removed, Function.update_apply] at entry
  split at entry
  · cases entry
  · exact .inl entry

theorem begins_table {succeeds : Bool} (step : t.begins source hasResult i succeeds = some t') :
    t'.count = t.count ∧ Entries t t' := by
  unfold begins at step
  dsimp only at step
  split at step
  · rename_i guard
    split at step
    · cases step
      exact ⟨rfl, entries_same rfl⟩
    · split at step
      · split at step
        · cases step
          exact ⟨rfl, entries_same rfl⟩
        · cases step
          constructor
          · rfl
          · intro streamId j entry
            dsimp only [set] at entry ⊢
            rw [Function.update_apply] at entry
            split at entry
            · cases entry
              right
              exact ⟨guard.1, by simp⟩
            · exact .inl entry
      · cases step
        exact ⟨rfl, entries_same rfl⟩
  · cases step

theorem goesOn_table (step : t.goesOn source i = some t') : t'.count = t.count ∧ Entries t t' := by
  unfold goesOn at step
  dsimp only at step
  split at step
  · split at step
    · split at step
      · cases step
        exact ⟨rfl, entries_same rfl⟩
      · cases step
        exact ⟨rfl, entries_removed rfl⟩
    · cases step
  · cases step

theorem forget_table (same : t'.count = t.count ∧ t'.pending = t.pending) :
    (t'.forget source i).count = t.count ∧ Entries t (t'.forget source i) := by
  constructor
  · rw [forget_count, same.1]
  · intro streamId j entry
    left
    rw [← same.2]
    exact forget_pending entry

theorem step_table {a : RequestAction} (step : t.step source hasResult a = some t') :
    Counted t t' ∧ Entries t t' := by
  have kept (same : t'.count = t.count ∧ t'.pending = t.pending) : Counted t t' ∧ Entries t t' :=
    ⟨.inl same.1, entries_same same.2⟩
  cases a with
  | accept streamId cancelled sampled =>
    cases step
    constructor
    · right
      exact ⟨rfl, streamId, cancelled, sampled, by simp [accept, set]⟩
    · exact entries_same rfl
  | begins i succeeds => exact (begins_table step).imp_left .inl
  | receives i received =>
    simp only [Requests.step, receives] at step
    cases received <;> exact kept (move_table step)
  | consumes i succeeds =>
    simp only [Requests.step, consumes] at step
    exact kept (move_table step)
  | eof i succeeds =>
    simp only [Requests.step, eof] at step
    exact kept (move_table step)
  | hearsDone i =>
    simp only [Requests.step, hearsDone] at step
    split at step
    · exact kept (move_table step)
    · cases step
  | waits i =>
    simp only [Requests.step, waits] at step
    split at step
    · cases step
    · exact kept (move_table step)
    · exact kept (move_table step)
  | retires i =>
    simp only [Requests.step, retires] at step
    split at step
    · exact kept (move_table step)
    · cases step
  | goesOn i => exact (goesOn_table step).imp_left .inl
  | ends i succeeds =>
    simp only [Requests.step, ends] at step
    split at step
    · obtain ⟨r, -, same⟩ := Option.map_eq_some_iff.mp step
      rw [← same]
      exact (forget_table ⟨rfl, rfl⟩).imp_left .inl
    · cases step
  | closes i =>
    obtain ⟨closed, move, same⟩ := Option.map_eq_some_iff.mp step
    rw [← same]
    exact (forget_table (move_table move)).imp_left .inl
  | result streamId messageId =>
    simp only [Requests.step, result] at step
    cases step
    split <;> exact ⟨.inl rfl, entries_same rfl⟩
  | callbackEnds i c remove =>
    simp only [Requests.step] at step
    split at step
    · obtain ⟨r, -, same⟩ := Option.map_eq_some_iff.mp step
      rw [← same]
      exact ⟨.inl rfl, entries_same rfl⟩
    · cases step
  | setResultCallback i messageId callback =>
    simp only [Requests.step] at step
    exact kept (touch_table step)
  | done i =>
    simp only [Requests.step] at step
    exact kept (touch_table step)
  | send i =>
    simp only [Requests.step] at step
    split at step
    · exact kept (touch_table step)
    · cases step
  | abort i =>
    simp only [Requests.step, abort] at step
    split at step
    · cases step
      exact ⟨.inl rfl, entries_same rfl⟩
    · cases step

theorem step_pending {a : RequestAction} (pending : t.PendingOk) (step : t.step source hasResult a = some t') :
    t'.PendingOk := by
  obtain ⟨counted, entries⟩ := step_table step
  have grows : t.count ≤ t'.count := by
    rcases counted with same | ⟨more, -⟩ <;> omega
  intro streamId i entry
  rcases entries streamId i entry with old | ⟨known, entered⟩
  · obtain ⟨known, entered⟩ := pending streamId i old
    constructor
    · omega
    · rcases step_moved pending step i known with same | moves
      · rw [same]
        exact entered
      · exact Request.moves_entered moves entered
  · exact ⟨by omega, entered⟩

/-- What holds of a fresh request and is kept by every move holds of every
    request of a run. -/
theorem reached_each {P : Request → Prop} {ok : Requests → RequestAction → Prop}
    (fresh : ∀ streamId cancelled sampled, P (.fresh streamId cancelled sampled))
    (moves : ∀ r r', Request.Moves source hasResult r r' → P r → P r')
    (reached : Reached source hasResult ok t) : ∀ i < t.count, P (t.request i) := by
  have both : t.PendingOk ∧ ∀ i < t.count, P (t.request i) := by
    apply steps_invariant (fun t : Requests => t.PendingOk ∧ ∀ i < t.count, P (t.request i)) _ reached
    · constructor
      · intro streamId i entry
        cases entry
      · intro i known
        exact absurd known (Nat.not_lt_zero i)
    · rintro t a t' ⟨pending, each⟩ _ step
      constructor
      · exact step_pending pending step
      · intro i known
        by_cases old : i < t.count
        · rcases step_moved pending step i old with same | moved
          · rw [same]
            exact each i old
          · exact moves _ _ moved (each i old)
        · rcases (step_table step).1 with same | ⟨more, streamId, cancelled, sampled, new⟩
          · omega
          · have last : i = t.count := by omega
            rw [last, new]
            exact fresh streamId cancelled sampled
  exact both.2

end Requests

end Sources
