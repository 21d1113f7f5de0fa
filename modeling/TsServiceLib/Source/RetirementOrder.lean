import TsServiceLib.Source.Retirement

/-!
The order in which every run of an endpoint retires and ends its requests. The
handler of a request is never left alone: it has ended, it awaits something
that is still outstanding, or it can go on by itself.
-/
namespace Sources
open Transitions EventLogs

namespace Request
variable {source : Source} {hasResult : Bool} {r r' : Request}

/-- A wait has heard of the signal when it is aborted. -/
def Heard (r : Request) : Prop := r.rest = .waiting → r.cancelled = true → r.race ≠ none

/-- What the handler still awaits: a call of the handler or of the transport,
    the result or the signal, or the callbacks that are running. -/
def Awaits (r : Request) : Prop :=
  match r.rest with
  | .beginning | .receiving | .consuming | .atEof | .rejecting | .ending | .closing => True
  | .waiting => r.completed = false ∧ r.cancelled = false
  | .retiring => r.running ≠ []
  | .retired _ | .ended => False

theorem heard_elsewhere (elsewhere : r.rest ≠ .waiting) : Heard r := fun rest => absurd rest elsewhere

/-- Where the wait and the signal are as before, it has heard as before. -/
theorem heard_same (rest : r'.rest = r.rest) (cancelled : r'.cancelled = r.cancelled)
    (race : r.race ≠ none → r'.race ≠ none) (heard : Heard r) : Heard r' := by
  intro waiting aborted
  rw [rest] at waiting
  rw [cancelled] at aborted
  exact race (heard waiting aborted)

theorem leave_heard : Heard (r.leave source) := by
  apply heard_elsewhere
  unfold leave retire
  split
  · dsimp only
    split <;> nofun
  · nofun

theorem wait_heard : Heard (r.wait source) := by
  unfold wait
  split
  · exact leave_heard
  · rename_i uncancelled
    split
    · exact leave_heard
    · intro _ cancelled
      exact absurd cancelled uncancelled

theorem consumed_heard : Heard (r.consumed source hasResult) := by
  unfold consumed
  dsimp only
  split <;> split
  · exact wait_heard
  · exact wait_heard
  · exact wait_heard
  · exact leave_heard
  · exact wait_heard
  · exact leave_heard

theorem complete_heard (heard : Heard r) : Heard (r.complete source) := by
  unfold complete
  refine heard_same ?_ ?_ ?_ heard
  · rfl
  · rfl
  intro decided
  dsimp only
  split
  · nofun
  · exact decided

theorem done_heard (heard : Heard r) : Heard (r.done source) := by
  unfold done
  split
  · exact heard
  · exact complete_heard heard

theorem send_heard (heard : Heard r) : Heard (r.send source) := by
  unfold send
  split
  · exact heard
  · split
    · exact complete_heard heard
    · exact done_heard heard

theorem moves_heard (moves : Moves source hasResult r r') (heard : Heard r) : Heard r' := by
  cases moves with
  | beginFails rest => exact heard_elsewhere nofun
  | refused rest enters => exact heard_elsewhere (by cases source <;> nofun)
  | entered rest enters | started rest enters =>
    apply heard_elsewhere
    unfold firstMessage
    split <;> nofun
  | message rest | noMessage rest | next rest streams | toEof rest grpc => exact heard_elsewhere nofun
  | fails rest => exact leave_heard
  | consumed rest => exact consumed_heard
  | hearsDone rest completed race => exact fun _ _ => nofun
  | waited rest race => exact leave_heard
  | waitFails rest race => exact leave_heard
  | retires rest resolved => exact heard_elsewhere nofun
  | goesOn rest grpc | goesOnEntered rest grpc => exact heard_elsewhere nofun
  | ends succeeds ended =>
    apply heard_elsewhere
    unfold ends at ended
    dsimp only at ended
    split at ended
    · cases ended
      split <;> nofun
    · split at ended <;> cases ended <;> nofun
    · cases ended
  | closes rest => exact heard_elsewhere nofun
  | delivers messageId entered =>
    unfold deliver
    split
    · exact heard
    · split <;> exact heard
  | callbackEnds c remove ended =>
    unfold callbackEnds at ended
    split at ended
    · cases ended
      exact heard
    · cases ended
  | setsCallback messageId callback =>
    unfold setResultCallback
    split <;> exact heard
  | done => exact done_heard heard
  | sends => exact send_heard heard
  | aborts cancelled =>
    intro waiting _
    unfold abort
    dsimp only
    split
    · nofun
    · rename_i decided
      exact fun undecided => decided ⟨waiting, undecided⟩

end Request

namespace Requests
variable {source : Source} {hasResult : Bool} {t : Requests} {i : Nat}

/-- The moves a handler makes by itself. -/
def own (i : Nat) : List RequestAction := [.hearsDone i, .waits i, .retires i, .goesOn i]

theorem move_enabled {rest : Rest} {f : Request → Request} (known : i < t.count) (at_rest : (t.request i).rest = rest) :
    ∃ t', t.move i rest f = some t' := by
  unfold move
  rw [if_pos ⟨known, at_rest⟩]
  exact ⟨_, rfl⟩

theorem handler_goes_on (known : i < t.count) (orderly : Request.Orderly source hasResult (t.request i))
    (heard : (t.request i).Heard) :
    (t.request i).rest = .ended ∨ (t.request i).Awaits ∨ ∃ a ∈ own i, ∃ t', t.step source hasResult a = some t' := by
  have ok := orderly.rest
  unfold Request.RestOk at ok
  unfold Request.Awaits
  cases rest : (t.request i).rest with
  | beginning | receiving | consuming | atEof | rejecting | ending | closing => exact .inr (.inl trivial)
  | waiting =>
    right
    cases race : (t.request i).race with
    | some done =>
      right
      refine ⟨.waits i, by simp [own], ?_⟩
      simp only [step, waits, race]
      cases done <;> exact move_enabled known rest
    | none =>
      cases completed : (t.request i).completed with
      | true =>
        right
        refine ⟨.hearsDone i, by simp [own], ?_⟩
        simp only [step, hearsDone, completed, race, and_self, if_true]
        exact move_enabled known rest
      | false =>
        left
        refine ⟨rfl, ?_⟩
        cases cancelled : (t.request i).cancelled with
        | false => rfl
        | true => exact absurd race (heard rest cancelled)
  | retiring =>
    right
    rw [rest] at ok
    by_cases busy : (t.request i).running = []
    · right
      have none : (t.request i).activeCallbacks = 0 := by
        rw [orderly.core.counted, busy]
        rfl
      have resolved := ok.2.2.mpr none
      refine ⟨.retires i, by simp [own], ?_⟩
      simp only [step, retires, resolved, if_true]
      exact move_enabled known rest
    · exact .inl busy
  | retired completed =>
    right
    right
    refine ⟨.goesOn i, by simp [own], ?_⟩
    simp only [step, goesOn, rest, known, if_true]
    split <;> exact ⟨_, rfl⟩
  | ended => exact .inl rfl

/-- A request retires in order. No callback is started once the retirement has
    begun, and `endRequest` is called after every callback, once if the request
    was begun; it has no error if the result had been told by the time the
    retirement was completed. -/
structure RetiresInOrder (source : Source) (hasResult : Bool) (r : Request) : Prop where
  closed : ∀ after c before, r.log = after ++ .callbackStarted c :: before → .retireBegun ∉ before
  ended : ∀ after error before, r.log = after ++ .endRequest error :: before →
    .requestStart ∈ before ∧ ∀ c, .callbackStarted c ∈ r.log → .callbackEnded c ∈ before
  answered : hasResult = true → ∀ after error before, r.log = after ++ .endRequest error :: before →
    .consumed ∈ before → Follows .retired source.answer before → error = none
  once : r.log.countP Event.isEnd ≤ 1
  exact : r.rest = .ended → (r.log.countP Event.isEnd = 1 ↔ .requestStart ∈ r.log)

theorem started_before_end {r : Request} (order : Each (Ordering source hasResult) r.log) {after before : List Event}
    {error : Option RequestError} (split : r.log = after ++ .endRequest error :: before) {c : Nat}
    (started : .callbackStarted c ∈ r.log) : .callbackStarted c ∈ before := by
  rw [split] at started
  rcases List.mem_append.mp started with later | same | ⟨-, earlier⟩
  · obtain ⟨newer, older, shape⟩ := List.append_of_mem later
    have entered := order newer (.callbackStarted c) (older ++ .endRequest error :: before)
      (by rw [split, shape, List.append_assoc, List.cons_append])
    have unended := entered.2 (.endRequest error) (by simp)
    cases unended
  · exact earlier

theorem orderly_retires {r : Request} (orderly : Request.Orderly source hasResult r) :
    RetiresInOrder source hasResult r := by
  have order := orderly.core.order
  have first : ∀ e before, Ordering source hasResult e before →
      e.isEnd = true → ∀ e' ∈ before, e'.isEnd = false := by
    intro e before ordering isEnd
    cases e with
    | endRequest error => exact ordering.2.1
    | _ => cases isEnd
  have once : r.log.countP Event.isEnd ≤ 1 := each_once (each_mono first order)
  constructor
  · intro after c before split
    exact (order after _ before split).1
  · intro after error before split
    have ordering := order after _ before split
    constructor
    · exact ordering.2.2.1
    · intro c started
      exact ordering.1 c (started_before_end order split started)
  · intro result after error before split
    exact (order after _ before split).2.2.2 result
  · exact once
  · intro rest
    have ok := orderly.rest
    unfold Request.RestOk at ok
    rw [rest] at ok
    constructor
    · intro ended
      obtain ⟨e, mem, isEnd⟩ := List.countP_pos_iff.mp (by omega : 0 < r.log.countP Event.isEnd)
      obtain ⟨after, before, split⟩ := List.append_of_mem mem
      cases e with
      | endRequest error =>
        have started := (order after _ before split).2.2.1
        rw [split]
        exact List.mem_append_right after (List.mem_cons_of_mem _ started)
      | _ => cases isEnd
    · intro started
      obtain ⟨error, mem⟩ := ok.2 started
      have some_end : 0 < r.log.countP Event.isEnd := List.countP_pos_iff.mpr ⟨_, mem, rfl⟩
      omega

/- In every run of any of the sources every request retires in order; and until
   it has ended it awaits something that is outstanding, or goes on by itself. -/
theorem requests_retire_in_order {ok : Requests → RequestAction → Prop} (reached : Reached source hasResult ok t)
    (known : i < t.count) :
    RetiresInOrder source hasResult (t.request i) ∧
      ((t.request i).rest = .ended ∨ (t.request i).Awaits ∨
        ∃ a ∈ own i, ∃ t', t.step source hasResult a = some t') := by
  have orderly := reached_each (fun streamId cancelled sampled => Request.fresh_orderly streamId cancelled sampled)
    (fun _ _ moves => Request.moves_orderly moves) reached i known
  have heard := reached_each (P := Request.Heard)
    (fun streamId cancelled sampled => Request.heard_elsewhere (by cases cancelled <;> cases sampled <;> nofun))
    (fun _ _ moves => Request.moves_heard moves) reached i known
  exact ⟨orderly_retires orderly, handler_goes_on known orderly heard⟩

/-- The signal is aborted while a callback runs and the request waits; the
    callback calls `done` during the retirement. -/
def cancelledWhileRunning : List RequestAction :=
  [.accept "s" false true, .begins 0 true, .setResultCallback 0 "m" 7, .result "s" "m", .consumes 0 true, .abort 0,
    .waits 0, .result "s" "m", .done 0, .callbackEnds 0 ⟨0, "m", 7⟩ true, .retires 0, .goesOn 0, .ends 0 true]

theorem requests_retire_in_order_cancelled :
    ∃ t : Requests, Reached .kafka true Any t ∧ 0 < t.count ∧ .aborted ∈ (t.request 0).log ∧
      .endRequest none ∈ (t.request 0).log ∧ RetiresInOrder .kafka true (t.request 0) := by
  have runs : (exec (step .kafka true) {} cancelledWhileRunning).map (fun t =>
      (t.count, decide (.aborted ∈ (t.request 0).log), decide (.endRequest none ∈ (t.request 0).log))) =
        some (1, true, true) := by
    decide +kernel
  obtain ⟨t, run, facts⟩ := Option.map_eq_some_iff.mp runs
  simp only [Prod.mk.injEq, decide_eq_true_eq] at facts
  obtain ⟨count, aborted, ended⟩ := facts
  have reached : Reached .kafka true Any t := exec_steps run
  have known : 0 < t.count := by omega
  exact ⟨t, reached, known, aborted, ended, (requests_retire_in_order reached known).1⟩

end Requests

end Sources
