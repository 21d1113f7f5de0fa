import TsServiceLib.Source.RequestMoves
import TsServiceLib.Source.ResultCallbacks
import Mathlib.Data.List.Basic

/-!
The requests of a Kafka or custom endpoint hold their callbacks as the results do
whose runs are studied by themselves: whatever happens to a request, its callbacks,
the calls that are running and the mark of its retirement are those of a result
that has been through a run of its own.
-/
namespace Sources.ResultCallbacks
open Transitions Function

def Kind.source : Kind → Source
  | .kafka => .kafka
  | .custom => .custom

theorem source_grpc (kind : Kind) : kind.source.grpc = false := by
  cases kind <;> rfl

def toRunning (c : Call String Nat) : Running := ⟨c.number, c.messageId, c.callback⟩

theorem toRunning_injective : Injective toRunning := by
  intro c d same
  cases c
  cases d
  simp only [toRunning, Running.mk.injEq] at same
  obtain ⟨number, messageId, callback⟩ := same
  rw [number, messageId, callback]

/-- The part of a request that its callbacks depend on. -/
structure View where
  callbacks : String → Option Nat
  retiring : Bool
  activeCallbacks : Nat
  running : List Running
  nextCallback : Nat

def viewRequest (r : Request) : View :=
  ⟨r.callbacks, r.retiring, r.activeCallbacks, r.running, r.nextCallback⟩

def viewResult (q : Result String Nat) : View :=
  ⟨q.callbacks, q.retiring, q.activeCallbacks, q.running.map toRunning, q.calls⟩

def View.retired (v : View) : View := { v with retiring := true }

/-- The move leaves the callbacks alone, or retires the result. -/
def Kept (r r' : Request) : Prop := viewRequest r' = viewRequest r ∨ viewRequest r' = (viewRequest r).retired

section Requests
variable {source : Source} {hasResult : Bool} {r r' : Request}

theorem noteIf_view (r : Request) (condition : Bool) (e : Event) : viewRequest (r.noteIf condition e) = viewRequest r := by
  unfold Request.noteIf
  split <;> rfl

theorem finish_view (r : Request) : viewRequest r.finish = viewRequest r := noteIf_view r r.sampled .spanEnd

theorem done_view (r : Request) : viewRequest (r.done source) = viewRequest r := by
  unfold Request.done
  split <;> rfl

theorem send_view (r : Request) : viewRequest (r.send source) = viewRequest r := by
  unfold Request.send
  split
  · rfl
  · split
    · rfl
    · exact done_view _

theorem close_view (r : Request) : viewRequest (r.close source hasResult) = viewRequest r := by
  unfold Request.close
  rw [finish_view, noteIf_view]
  rfl

theorem firstMessage_view (r : Request) : viewRequest (r.firstMessage source) = viewRequest r := by
  unfold Request.firstMessage
  split <;> rfl

theorem refuse_view (r : Request) : viewRequest (r.refuse source) = viewRequest r := by
  cases source <;> rfl

theorem excuse_view (r : Request) (completed : Bool) : viewRequest (r.excuse completed) = viewRequest r := by
  unfold Request.excuse
  split <;> rfl

theorem ends_view {succeeds : Bool} (ended : r.ends source hasResult succeeds = some r') :
    viewRequest r' = viewRequest r := by
  unfold Request.ends at ended
  split at ended
  · cases ended
    split
    · rw [finish_view]
      rfl
    · rw [finish_view]
      rfl
  · dsimp only at ended
    split at ended
    · cases ended
      split <;> rfl
    · cases ended
      rw [close_view]
      split <;> rfl
  · cases ended

theorem finishRetire_view (grpc : source.grpc = false) (r : Request) :
    viewRequest (r.finishRetire source) = viewRequest r := by
  simp [viewRequest, Request.finishRetire, Request.note, grpc]

theorem retire_view (grpc : source.grpc = false) (r : Request) :
    viewRequest (r.retire source) = (viewRequest r).retired := by
  unfold Request.retire
  split
  · rfl
  · rw [finishRetire_view grpc]
    rfl

theorem leave_kept (grpc : source.grpc = false) (r : Request) : Kept r (r.leave source) := by
  unfold Request.leave
  split
  · exact .inr (retire_view grpc r)
  · exact .inl rfl

theorem wait_kept (grpc : source.grpc = false) (r : Request) : Kept r (r.wait source) := by
  unfold Request.wait
  split
  · exact leave_kept grpc { r with resultWaitFailed := true, failure := some .cancelled }
  · split
    · exact leave_kept grpc r
    · exact .inl rfl

theorem consumed_kept (kind : Kind) (r : Request) : Kept r (r.consumed kind.source hasResult) := by
  cases kind with
  | kafka =>
    cases hasResult with
    | true => exact wait_kept rfl (r.note .consumed)
    | false => exact wait_kept rfl ((r.note .consumed).done .kafka)
  | custom =>
    cases hasResult with
    | true => exact wait_kept rfl (r.note .consumed)
    | false => exact leave_kept rfl (r.note .consumed)

end Requests

section Simulation
variable {kind : Kind} {hasResult : Bool} {r r' : Request} {q : Result String Nat}

theorem event_view (q : Result String Nat) (name : String) (messageId : Option String) :
    viewResult (q.addEvent kind name messageId) = viewResult q := by
  cases kind <;> rfl

/-- The result is where the request is, at the end of a run of its own. -/
def Agrees (kind : Kind) (r : Request) : Prop :=
  ∃ q : Result String Nat, Steps (step kind) Any {} q ∧ viewRequest r = viewResult q

theorem agrees_step {a : Action String Nat} {q' : Result String Nat} (run : Steps (step kind) Any {} q)
    (next : step kind q a = some q') (same : viewRequest r' = viewResult q') : Agrees kind r' :=
  ⟨q', .tail run trivial next, same⟩

theorem agrees_kept (kept : Kept r r') (agrees : Agrees kind r) : Agrees kind r' := by
  obtain ⟨q, run, same⟩ := agrees
  rcases kept with unchanged | retired
  · exact ⟨q, run, unchanged.trans same⟩
  · apply agrees_step (a := .retire) run rfl
    rw [retired, same]
    rfl

theorem agrees_sets (agrees : Agrees kind r) (messageId : String) (callback : Nat) :
    Agrees kind (r.setResultCallback kind.source messageId callback) := by
  obtain ⟨q, run, same⟩ := agrees
  apply agrees_step (a := .setResultCallback messageId callback) run rfl
  simp only [viewRequest, viewResult, View.mk.injEq] at same
  obtain ⟨callbacks, retiring, active, running, next⟩ := same
  simp [Request.setResultCallback, source_grpc, viewRequest, viewResult, Result.setResultCallback, Result.note,
    callbacks, retiring, active, running, next]

theorem agrees_delivers (agrees : Agrees kind r) (messageId : String) : Agrees kind (r.deliver messageId) := by
  obtain ⟨q, run, same⟩ := agrees
  apply agrees_step (a := .consumeResult (some messageId)) run rfl
  have parts := same
  simp only [viewRequest, viewResult, View.mk.injEq] at parts
  obtain ⟨callbacks, retiring, active, running, next⟩ := parts
  unfold Request.deliver Result.consumeResult Result.beginCallback
  cases stopping : q.retiring with
  | true =>
    rw [retiring, stopping]
    simp only [↓reduceIte]
    rw [event_view]
    exact same
  | false =>
    rw [retiring, stopping, callbacks]
    simp only [Bool.false_eq_true, ↓reduceIte]
    cases found : q.callbacks messageId with
    | none =>
      rw [same]
      cases kind <;> simp [viewResult, Result.addEvent, Result.note, Result.endCallback, stopping]
    | some callback =>
      simp [viewRequest, viewResult, Request.note, Result.note, toRunning, callbacks, retiring, stopping, active, running, next]

theorem settles_view (kind : Kind) {d : Call String Nat} (mine : d ∈ q.running) (returned : Bool) :
    ∃ q', step kind q (.settles d (some returned)) = some q' ∧ viewResult q' =
      { callbacks := if returned = true ∧ q.callbacks d.messageId = some d.callback then
          update q.callbacks d.messageId none else q.callbacks
        retiring := q.retiring
        activeCallbacks := q.activeCallbacks - 1
        running := (q.running.erase d).map toRunning
        nextCallback := q.calls } := by
  cases returned with
  | false =>
    refine ⟨_, by simp only [step, Result.settles, if_pos mine]; rfl, ?_⟩
    cases kind <;> simp [viewResult, Result.addEvent, Result.note, Result.endCallback]
  | true =>
    refine ⟨_, by simp only [step, Result.settles, if_pos mine]; rfl, ?_⟩
    unfold Result.finishes Result.remove
    by_cases registered : q.callbacks d.messageId = some d.callback
    · cases kind <;> simp [viewResult, Result.addEvent, Result.note, Result.endCallback, registered]
    · cases kind <;> simp [viewResult, Result.addEvent, Result.note, Result.endCallback, registered]

theorem agrees_ends {c : Running} {remove : Bool} (agrees : Agrees kind r)
    (ended : r.callbackEnds c remove = some r') : Agrees kind r' := by
  obtain ⟨q, run, same⟩ := agrees
  simp only [viewRequest, viewResult, View.mk.injEq] at same
  obtain ⟨callbacks, retiring, active, running, next⟩ := same
  simp only [Request.callbackEnds, Option.ite_none_right_eq_some, Option.some.injEq] at ended
  obtain ⟨awaited, shape⟩ := ended
  rw [running] at awaited
  obtain ⟨d, among, named⟩ := List.mem_map.mp awaited
  have mine : d ∈ q.running := among
  have erased : r.running.erase (toRunning d) = (q.running.erase d).map toRunning := by
    rw [running, List.map_erase toRunning_injective]
  subst named
  subst shape
  obtain ⟨q', settled, view⟩ := settles_view kind mine remove
  apply agrees_step run settled
  rw [view]
  simp only [viewRequest, Request.note, erased, callbacks, retiring, active, next]
  rfl

theorem agrees_moves (moves : Request.Moves kind.source hasResult r r') (agrees : Agrees kind r) : Agrees kind r' := by
  have grpc := source_grpc kind
  cases moves with
  | beginFails rest => exact agrees_kept (.inl (finish_view _)) agrees
  | refused rest enters => exact agrees_kept (.inl (refuse_view _)) agrees
  | entered rest enters => exact agrees_kept (.inl ((firstMessage_view _).trans (noteIf_view _ _ _))) agrees
  | started rest enters => exact agrees_kept (.inl (firstMessage_view _)) agrees
  | message rest => exact agrees_kept (.inl rfl) agrees
  | noMessage rest => exact agrees_kept (.inl rfl) agrees
  | fails rest => exact agrees_kept (leave_kept grpc { r with failure := some .handler }) agrees
  | next rest streams => exact agrees_kept (.inl rfl) agrees
  | toEof rest streams => exact agrees_kept (.inl rfl) agrees
  | consumed rest => exact agrees_kept (consumed_kept kind r) agrees
  | hearsDone rest completed race => exact agrees_kept (.inl rfl) agrees
  | waited rest race => exact agrees_kept (leave_kept grpc r) agrees
  | waitFails rest race =>
    exact agrees_kept (leave_kept grpc { r with resultWaitFailed := true, failure := some .cancelled }) agrees
  | retires rest resolved => exact agrees_kept (.inl (finishRetire_view grpc r)) agrees
  | goesOn rest outside => exact agrees_kept (.inl (excuse_view r _)) agrees
  | goesOnEntered rest inside => exact agrees_kept (.inl (excuse_view r _)) agrees
  | ends succeeds ended => exact agrees_kept (.inl (ends_view ended)) agrees
  | closes rest => exact agrees_kept (.inl (close_view r)) agrees
  | delivers messageId entered => exact agrees_delivers agrees messageId
  | callbackEnds c remove ended => exact agrees_ends agrees ended
  | setsCallback messageId callback => exact agrees_sets agrees messageId callback
  | done => exact agrees_kept (.inl (done_view r)) agrees
  | sends => exact agrees_kept (.inl (send_view r)) agrees
  | aborts cancelled => exact agrees_kept (.inl rfl) agrees

/-- In every run of the endpoint the callbacks of each request are where a run of a
    result by itself has them. -/
theorem requests_agree {ok : Requests → RequestAction → Prop} {t : Requests}
    (reached : Requests.Reached kind.source hasResult ok t) : ∀ i < t.count, Agrees kind (t.request i) := by
  apply Requests.reached_each (P := Agrees kind) _ _ reached
  · intro streamId cancelled sampled
    refine ⟨{}, .refl _, ?_⟩
    rw [Request.fresh, noteIf_view, noteIf_view]
    rfl
  · intro r r' moves agrees
    exact agrees_moves moves agrees

end Simulation

end Sources.ResultCallbacks
