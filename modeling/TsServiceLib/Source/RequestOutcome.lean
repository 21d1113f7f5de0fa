import TsServiceLib.Source.RequestMoves

/-!
The outcome of a request without a result stream, of the Kafka and the custom
source. Both hand `endRequest` the failure of `consumeMessage`; but the Kafka
handler marks the result done and waits for it all the same, and that wait
fails if the signal has been aborted by then.
-/
namespace Sources
open Transitions EventLogs

/-- The error that `endRequest` is given, and that `onRequestEnd` records if it
    succeeds, is absent exactly if consumeMessage succeeded. -/
def OutcomeAgrees (log : List Event) : Prop :=
  (∀ error, .endRequest error ∈ log → (error = none ↔ .consumed ∈ log)) ∧
    (.endSettled true ∈ log → ∀ error, .requestEnd error ∈ log → (error = none ↔ .consumed ∈ log))

/-- The events that do not bear on the outcome. -/
def Event.besides : Event → Bool
  | .consumed | .endRequest _ | .requestEnd _ | .endSettled _ => false
  | _ => true

namespace Request
variable {source : Source} {r r' : Request}

/-- consumeMessage succeeded, and not, for Kafka, after the signal was aborted. -/
def Passes (source : Source) (log : List Event) : Prop :=
  .consumed ∈ log ∧ ¬(source = .kafka ∧ Follows .consumed .aborted log)

/-- Nothing has been handed to `endRequest`. -/
structure Undecided (r : Request) : Prop where
  faultless : r.failure = none
  unended : ∀ error, .endRequest error ∉ r.log
  unrecorded : ∀ error, .requestEnd error ∉ r.log
  unsettled : .endSettled true ∉ r.log

/-- What holds of the request at every rest. -/
structure Lone (r : Request) : Prop where
  outside : r.entered = false
  calm : r.running = []
  heard : r.cancelled = true ↔ .aborted ∈ r.log

/-- What has been handed on says whether the request passes. -/
structure Judged (source : Source) (r : Request) : Prop where
  handed : ∀ error, .endRequest error ∈ r.log → (error = none ↔ Passes source r.log)
  recorded : .endSettled true ∈ r.log → ∀ error, .requestEnd error ∈ r.log → (error = none ↔ Passes source r.log)

def OutcomeAt (source : Source) (r : Request) : Prop :=
  match r.rest with
  | .beginning | .consuming => Undecided r ∧ .consumed ∉ r.log
  | .waiting => Undecided r ∧ Passes source r.log ∧ r.race = some true
  | .ending => Judged source r ∧ (r.failure = none ↔ Passes source r.log) ∧ (∃ error, .endRequest error ∈ r.log) ∧
      .endSettled true ∉ r.log ∧ ∀ error, .requestEnd error ∉ r.log
  | .ended => Judged source r ∧ (.consumed ∈ r.log → ∃ error, .endRequest error ∈ r.log)
  | _ => False

structure Outcome (source : Source) (r : Request) : Prop where
  lone : Lone r
  rest : OutcomeAt source r

section Besides

theorem besides_passes {log log' : List Event} (grown : Grown Event.besides log log') :
    Passes source log' ↔ Passes source log := by
  rw [Passes, Passes, grown_mem grown rfl, grown_follows grown rfl]

/-- Nothing has happened that bears on the outcome. -/
structure Besides (r r' : Request) : Prop where
  failure : r'.failure = r.failure
  log : Grown Event.besides r.log r'.log

theorem besides_undecided (besides : Besides r r') (undecided : Undecided r) : Undecided r' where
  faultless := besides.failure.trans undecided.faultless
  unended error mem := undecided.unended error ((grown_mem besides.log rfl).mp mem)
  unrecorded error mem := undecided.unrecorded error ((grown_mem besides.log rfl).mp mem)
  unsettled mem := undecided.unsettled ((grown_mem besides.log rfl).mp mem)

theorem besides_judged (besides : Besides r r') (judged : Judged source r) : Judged source r' where
  handed error mem := by
    rw [besides_passes besides.log]
    exact judged.handed error ((grown_mem besides.log rfl).mp mem)
  recorded settled error mem := by
    rw [besides_passes besides.log]
    exact judged.recorded ((grown_mem besides.log rfl).mp settled) error ((grown_mem besides.log rfl).mp mem)

theorem besides_outcome (besides : Besides r r') (rest : r'.rest = r.rest)
    (race : r.race = some true → r'.race = some true) (lone : Lone r') (outcome : OutcomeAt source r) :
    Outcome source r' := by
  refine ⟨lone, ?_⟩
  unfold OutcomeAt at outcome ⊢
  rw [rest]
  generalize r.rest = place at outcome ⊢
  cases place with
  | beginning | consuming =>
    exact ⟨besides_undecided besides outcome.1, fun mem => outcome.2 ((grown_mem besides.log rfl).mp mem)⟩
  | waiting =>
    obtain ⟨undecided, passes, heard⟩ := outcome
    exact ⟨besides_undecided besides undecided, (besides_passes besides.log).mpr passes, race heard⟩
  | ending =>
    obtain ⟨judged, right, ⟨error, ended⟩, unsettled, unrecorded⟩ := outcome
    refine ⟨besides_judged besides judged, ?_, ⟨error, grown_old besides.log ended⟩, ?_, ?_⟩
    · rw [besides.failure, besides_passes besides.log]
      exact right
    · exact fun mem => unsettled ((grown_mem besides.log rfl).mp mem)
    · exact fun error mem => unrecorded error ((grown_mem besides.log rfl).mp mem)
  | ended =>
    refine ⟨besides_judged besides outcome.1, ?_⟩
    intro consumed
    obtain ⟨error, ended⟩ := outcome.2 ((grown_mem besides.log rfl).mp consumed)
    exact ⟨error, grown_old besides.log ended⟩
  | _ => exact outcome

theorem lone_note {e : Event} (lone : Lone r) (other : .aborted ≠ e) : Lone (r.note e) where
  outside := lone.outside
  calm := lone.calm
  heard := by
    rw [note, List.mem_cons, or_iff_right other]
    exact lone.heard

theorem besides_note {e : Event} (kind : e.besides = true) : Besides r (r.note e) := ⟨rfl, grown_cons kind⟩

theorem complete_race (race : r.race = some true) : (r.complete source).race = some true := by
  unfold complete
  dsimp only
  split
  · rfl
  · exact race

theorem done_outcome (outcome : Outcome source r) : Outcome source (r.done source) := by
  have lone : Lone (r.note .done) := lone_note outcome.lone nofun
  unfold done
  split
  · exact besides_outcome (besides_note rfl) rfl id lone outcome.rest
  · apply besides_outcome _ _ _ _ outcome.rest
    · exact ⟨rfl, grown_cons rfl⟩
    · rfl
    · exact complete_race
    · exact { lone with }

theorem send_outcome (outcome : Outcome source r) : Outcome source (r.send source) := by
  have sent : Outcome source ({ r with sent := true }.note .sent) := by
    apply besides_outcome _ _ _ _ outcome.rest
    · exact ⟨rfl, grown_cons rfl⟩
    · rfl
    · exact id
    · exact { lone_note outcome.lone (e := .sent) nofun with }
  unfold send
  split
  · exact outcome
  · split
    · apply besides_outcome _ _ _ _ sent.rest
      · exact ⟨rfl, grown_refl _ _⟩
      · rfl
      · exact complete_race
      · exact { sent.lone with }
    · exact done_outcome sent

end Besides

section Phases

theorem passes_cons {e : Event} {log : List Event} (other : .consumed ≠ e) :
    Passes source (e :: log) ↔ Passes source log := by
  rw [Passes, Passes, List.mem_cons, or_iff_right other, follows_cons]
  simp [other.symm]

/-- As consumeMessage succeeds it is settled whether the request passes. -/
theorem passes_consumed {log : List Event} (first : .consumed ∉ log) :
    Passes source (.consumed :: log) ↔ ¬(source = .kafka ∧ .aborted ∈ log) := by
  have older : ¬Follows .consumed .aborted log := fun follows => first (follows_mem follows).1
  rw [Passes, follows_cons]
  simp [older]

theorem not_passes {log : List Event} (unconsumed : .consumed ∉ log) : ¬Passes source log :=
  fun passes => unconsumed passes.1

theorem callEnd_outcome (lone : Lone r) (right : r.failure = none ↔ Passes source r.log)
    (unended : ∀ error, .endRequest error ∉ r.log) (unrecorded : ∀ error, .requestEnd error ∉ r.log)
    (unsettled : .endSettled true ∉ r.log) : Outcome source r.callEnd := by
  have noted : Lone (r.note (.endRequest r.failure)) := lone_note lone nofun
  have passes : Passes source (.endRequest r.failure :: r.log) ↔ Passes source r.log := passes_cons nofun
  refine ⟨{ noted with }, ⟨?_, ?_⟩, ?_, ⟨r.failure, List.mem_cons_self⟩, ?_, ?_⟩
  · intro error mem
    rcases List.mem_cons.mp mem with same | before
    · cases same
      exact right.trans passes.symm
    · exact absurd before (unended error)
  · intro settled
    rcases List.mem_cons.mp settled with same | before
    · cases same
    · exact absurd before unsettled
  · exact right.trans passes.symm
  · intro mem
    rcases List.mem_cons.mp mem with same | before
    · cases same
    · exact unsettled before
  · intro error mem
    rcases List.mem_cons.mp mem with same | before
    · cases same
    · exact unrecorded error before

/-- The failure may have been set since the request was undecided. -/
theorem leave_outcome (lone : Lone r') (undecided : Undecided r) (same : r'.log = r.log)
    (right : r'.failure = none ↔ Passes source r'.log) : Outcome source (r'.leave source) := by
  unfold leave
  rw [lone.outside]
  apply callEnd_outcome lone right <;> rw [same]
  · exact undecided.unended
  · exact undecided.unrecorded
  · exact undecided.unsettled

theorem fail_outcome (lone : Lone r) (undecided : Undecided r) (unconsumed : .consumed ∉ r.log) (error : RequestError) :
    Outcome source (r.fail source error) := by
  have failed : Lone { r with failure := some error } := { lone with }
  exact leave_outcome failed undecided rfl (iff_of_false nofun (not_passes unconsumed))

theorem note_undecided {e : Event} (undecided : Undecided r) (ends : ∀ error, .endRequest error ≠ e)
    (records : ∀ error, .requestEnd error ≠ e) (settles : .endSettled true ≠ e) : Undecided (r.note e) where
  faultless := undecided.faultless
  unended error mem := undecided.unended error (mem_note mem (ends error))
  unrecorded error mem := undecided.unrecorded error (mem_note mem (records error))
  unsettled mem := undecided.unsettled (mem_note mem settles)

/-- The wait of the Kafka handler for a result that it has marked done. -/
theorem wait_outcome (lone : Lone r) (undecided : Undecided r) (completed : r.completed = true)
    (passes : Passes .kafka r.log ↔ r.cancelled = false) : Outcome .kafka (r.wait .kafka) := by
  unfold wait
  by_cases cancelled : r.cancelled = true
  · have failed : ¬Passes .kafka r.log := by
      rw [passes, cancelled]
      nofun
    rw [if_pos cancelled]
    have still : Lone { r with resultWaitFailed := true, failure := some .cancelled } := { lone with }
    exact leave_outcome still undecided rfl (iff_of_false nofun failed)
  · rw [if_neg cancelled, if_neg (fun both => absurd both.1 (by decide)), completed]
    exact ⟨{ lone with }, { undecided with }, passes.mpr (Bool.eq_false_iff.mpr cancelled), rfl⟩

theorem consumed_outcome (kind : source = .kafka ∨ source = .custom) (lone : Lone r) (undecided : Undecided r)
    (unconsumed : .consumed ∉ r.log) : Outcome source (r.consumed source false) := by
  have noted : Lone (r.note .consumed) := lone_note lone nofun
  have still : Undecided (r.note .consumed) := note_undecided undecided nofun nofun nofun
  have passes : Passes source (r.note .consumed).log ↔ ¬(source = .kafka ∧ .aborted ∈ r.log) :=
    passes_consumed unconsumed
  rcases kind with same | same <;> subst same
  · have done : Lone ((r.note .consumed).note .done) := lone_note noted nofun
    have open_still : Undecided ((r.note .consumed).note .done) := note_undecided still nofun nofun nofun
    apply wait_outcome
    · exact { done with }
    · exact { open_still with }
    · rfl
    · have later : Passes .kafka (.done :: .consumed :: r.log) ↔ Passes .kafka (.consumed :: r.log) :=
        passes_cons nofun
      apply later.trans
      apply passes.trans
      have heard := lone.heard
      rw [← heard]
      exact ⟨fun unheard => Bool.eq_false_iff.mpr (fun cancelled => unheard ⟨rfl, cancelled⟩),
        fun uncancelled cancelled => Bool.eq_false_iff.mp uncancelled cancelled.2⟩
  · exact leave_outcome noted still rfl (iff_of_true undecided.faultless (passes.mpr nofun))

theorem finish_outcome (lone : Lone r) (judged : Judged source r)
    (ended : .consumed ∈ r.log → ∃ error, .endRequest error ∈ r.log) : Outcome source r.finish := by
  have kept : Outcome source { r with rest := .ended } := ⟨{ lone with }, { judged with }, ended⟩
  have same : r.finish = { r with rest := .ended }.noteIf r.sampled .spanEnd := by
    unfold finish noteIf
    split <;> rfl
  rw [same]
  unfold noteIf
  split
  · exact besides_outcome (besides_note rfl) rfl id (lone_note kept.lone nofun) kept.rest
  · exact kept

theorem close_outcome (out : source.grpc = false) (lone : Lone r) (judged : Judged source r)
    (called : ∃ error, .endRequest error ∈ r.log) (unrecorded : ∀ error, .requestEnd error ∉ r.log)
    (right : .endSettled true ∈ r.log → (r.failure = none ↔ Passes source r.log)) :
    Outcome source (r.close source false) := by
  have passes : Passes source (.requestEnd r.failure :: r.log) ↔ Passes source r.log := passes_cons nofun
  have recorded : Judged source (r.note (.requestEnd r.failure)) := by
    constructor
    · intro error mem
      apply (judged.handed error (mem_note mem nofun)).trans
      exact passes.symm
    · intro settled error mem
      have before := mem_note settled nofun
      rcases List.mem_cons.mp mem with same | older
      · cases same
        exact (right before).trans passes.symm
      · exact absurd older (unrecorded error)
  have noted : Lone (r.note (.requestEnd r.failure)) := lone_note lone nofun
  unfold close
  rw [out, Bool.false_and, Bool.false_and]
  apply finish_outcome noted recorded
  intro _
  obtain ⟨error, mem⟩ := called
  exact ⟨error, List.mem_cons_of_mem _ mem⟩

theorem ends_outcome {succeeds : Bool} (kind : source = .kafka ∨ source = .custom)
    (ended : r.ends source false succeeds = some r') (outcome : Outcome source r) : Outcome source r' := by
  have ok := outcome.rest
  unfold OutcomeAt at ok
  unfold ends at ended
  dsimp only at ended
  split at ended
  · rename_i rest
    rw [rest] at ok
    exact ok.elim
  · rename_i rest
    rw [rest] at ok
    obtain ⟨judged, right, ⟨error, called⟩, unsettled, unrecorded⟩ := ok
    have out : source.streamsOut = false ∧ source.grpc = false := by
      rcases kind with same | same <;> subst same <;> exact ⟨rfl, rfl⟩
    rw [out.1] at ended
    cases ended
    have noted : Lone (r.note (.endSettled succeeds)) := lone_note outcome.lone nofun
    have passes : Passes source (.endSettled succeeds :: r.log) ↔ Passes source r.log := passes_cons nofun
    have settled : Judged source (r.note (.endSettled succeeds)) := by
      constructor
      · intro error mem
        apply (judged.handed error (mem_note mem nofun)).trans
        exact passes.symm
      · intro _ error mem
        exact absurd (mem_note mem nofun) (unrecorded error)
    have called' : .endRequest error ∈ (r.note (.endSettled succeeds)).log := List.mem_cons_of_mem _ called
    have unrecorded' : ∀ error, .requestEnd error ∉ (r.note (.endSettled succeeds)).log :=
      fun error mem => unrecorded error (mem_note mem nofun)
    split
    · rename_i failed
      apply close_outcome out.2
      · exact { noted with }
      · exact { settled with }
      · exact ⟨error, called'⟩
      · exact unrecorded'
      · intro mem
        rcases List.mem_cons.mp mem with same | before
        · rw [failed.1] at same
          cases same
        · exact absurd before unsettled
    · apply close_outcome out.2 noted settled ⟨error, called'⟩ unrecorded'
      exact fun _ => right.trans passes.symm
  · cases ended

end Phases

theorem fresh_outcome (streamId : String) (cancelled sampled : Bool) :
    Outcome source (fresh streamId cancelled sampled) := by
  cases cancelled <;> cases sampled
  all_goals
    constructor
    · constructor <;> simp [fresh, noteIf, note]
    · constructor
      · constructor <;> simp [fresh, noteIf, note]
      · simp [fresh, noteIf, note]

theorem moves_outcome (kind : source = .kafka ∨ source = .custom) (moves : Moves source false r r')
    (outcome : Outcome source r) : Outcome source r' := by
  have lone := outcome.lone
  have ok := outcome.rest
  unfold OutcomeAt at ok
  have alone : source.grpc = false ∧ source.streamsIn = false ∧ source.enters false = false := by
    rcases kind with same | same <;> subst same <;> exact ⟨rfl, rfl, rfl⟩
  cases moves with
  | beginFails rest =>
    rw [rest] at ok
    obtain ⟨undecided, unconsumed⟩ := ok
    have noted : Lone (r.note .beginFailed) := lone_note lone nofun
    have still : Undecided (r.note .beginFailed) := note_undecided undecided nofun nofun nofun
    apply finish_outcome noted
    · constructor
      · exact fun error mem => absurd mem (still.unended error)
      · exact fun settled => absurd settled still.unsettled
    · exact fun mem => absurd (mem_note mem nofun) unconsumed
  | refused rest enters =>
    rw [alone.2.2] at enters
    cases enters
  | entered rest enters =>
    rw [alone.2.2] at enters
    cases enters
  | started rest enters =>
    rw [rest] at ok
    obtain ⟨undecided, unconsumed⟩ := ok
    have noted : Lone (r.note .requestStart) := lone_note lone nofun
    have still : Undecided (r.note .requestStart) := note_undecided undecided nofun nofun nofun
    unfold firstMessage
    rw [alone.2.1]
    refine ⟨{ noted with }, { still with }, ?_⟩
    exact fun mem => unconsumed (mem_note mem nofun)
  | message rest | noMessage rest =>
    rw [rest] at ok
    exact ok.elim
  | fails rest =>
    rcases rest with rest | rest | rest <;> rw [rest] at ok
    · exact ok.elim
    · exact fail_outcome lone ok.1 ok.2 .handler
    · exact ok.elim
  | next rest streams =>
    rw [alone.2.1] at streams
    cases streams
  | toEof rest grpc =>
    rw [alone.1] at grpc
    cases grpc
  | consumed rest =>
    rcases rest with rest | rest <;> rw [rest] at ok
    · exact consumed_outcome kind lone ok.1 ok.2
    · exact ok.elim
  | hearsDone rest completed race =>
    rw [rest] at ok
    rw [ok.2.2] at race
    cases race
  | waited rest race =>
    rw [rest] at ok
    obtain ⟨undecided, passes, -⟩ := ok
    exact leave_outcome lone undecided rfl (iff_of_true undecided.faultless passes)
  | waitFails rest race =>
    rw [rest] at ok
    rw [ok.2.2] at race
    cases race
  | retires rest resolved =>
    rw [rest] at ok
    exact ok.elim
  | goesOn rest grpc | goesOnEntered rest grpc =>
    rw [rest] at ok
    exact ok.elim
  | ends succeeds ended => exact ends_outcome kind ended outcome
  | closes rest =>
    rw [rest] at ok
    exact ok.elim
  | delivers messageId entered =>
    rw [lone.outside] at entered
    cases entered
  | callbackEnds c remove ended =>
    unfold callbackEnds at ended
    rw [lone.calm] at ended
    cases ended
  | setsCallback messageId callback =>
    unfold setResultCallback
    split
    · exact outcome
    · apply besides_outcome _ _ _ _ outcome.rest
      · exact ⟨rfl, grown_refl _ _⟩
      · rfl
      · exact id
      · exact { lone with }
  | done => exact done_outcome outcome
  | sends => exact send_outcome outcome
  | aborts cancelled =>
    apply besides_outcome _ _ _ _ outcome.rest
    · exact ⟨rfl, grown_cons rfl⟩
    · rfl
    · intro race
      simp [abort, race]
    · exact ⟨lone.outside, lone.calm, iff_of_true rfl List.mem_cons_self⟩

/-- The request that Kafka ends with an error though it was consumed. -/
theorem outcome_agrees (outcome : Outcome source r) :
    OutcomeAgrees r.log ↔ ¬(source = .kafka ∧ Follows .consumed .aborted r.log) := by
  have ok := outcome.rest
  unfold OutcomeAt at ok
  have ended : .consumed ∈ r.log → ¬Passes source r.log → ∃ error, .endRequest error ∈ r.log := by
    intro consumed fails
    generalize r.rest = rest at ok
    cases rest with
    | beginning | consuming => exact absurd consumed ok.2
    | waiting => exact absurd ok.2.1 fails
    | ending => exact ok.2.2.1
    | ended => exact ok.2 consumed
    | _ => exact ok.elim
  have judged : Judged source r := by
    generalize r.rest = rest at ok
    cases rest with
    | beginning | consuming | waiting =>
      constructor
      · exact fun error mem => absurd mem (ok.1.unended error)
      · exact fun settled => absurd settled ok.1.unsettled
    | ending | ended => exact ok.1
    | _ => exact ok.elim
  constructor
  · intro agrees cancelled
    have consumed : .consumed ∈ r.log := (follows_mem cancelled.2).1
    have fails : ¬Passes source r.log := fun passes => passes.2 cancelled
    obtain ⟨error, mem⟩ := ended consumed fails
    exact fails ((judged.handed error mem).mp ((agrees.1 error mem).mpr consumed))
  · intro uncancelled
    have passes : Passes source r.log ↔ .consumed ∈ r.log := ⟨fun passes => passes.1, fun mem => ⟨mem, uncancelled⟩⟩
    constructor
    · exact fun error mem => (judged.handed error mem).trans passes
    · exact fun settled error mem => (judged.recorded settled error mem).trans passes

end Request

namespace Requests
variable {source : Source} {t : Requests} {i : Nat}

/- The outcome of a request without a result stream is that of its
   consumeMessage, but in Kafka when that succeeds after the signal was aborted. -/
theorem outcomes_agree {ok : Requests → RequestAction → Prop} (kind : source = .kafka ∨ source = .custom)
    (reached : Reached source false ok t) (known : i < t.count) :
    OutcomeAgrees (t.request i).log ↔ ¬(source = .kafka ∧ Follows .consumed .aborted (t.request i).log) :=
  Request.outcome_agrees (reached_each
    (fun streamId cancelled sampled => Request.fresh_outcome streamId cancelled sampled)
    (fun _ _ moves => Request.moves_outcome kind moves) reached i known)

/-- The signal is aborted while consumeMessage runs, which then succeeds. -/
def abortedWhileConsuming : List RequestAction :=
  [.accept "s" false false, .begins 0 true, .abort 0, .consumes 0 true]

theorem outcomes_agree_custom :
    ∃ t : Requests, Reached .custom false Any t ∧ 0 < t.count ∧ .aborted ∈ (t.request 0).log ∧
      .endRequest none ∈ (t.request 0).log ∧ OutcomeAgrees (t.request 0).log := by
  have runs : (exec (step .custom false) {} abortedWhileConsuming).map (fun t =>
      (t.count, decide (.aborted ∈ (t.request 0).log), decide (.endRequest none ∈ (t.request 0).log))) =
        some (1, true, true) := by
    decide +kernel
  obtain ⟨t, run, facts⟩ := Option.map_eq_some_iff.mp runs
  simp only [Prod.mk.injEq, decide_eq_true_eq] at facts
  obtain ⟨count, aborted, ended⟩ := facts
  have reached : Reached .custom false Any t := exec_steps run
  have known : 0 < t.count := by omega
  exact ⟨t, reached, known, aborted, ended, (outcomes_agree (.inr rfl) reached known).mpr nofun⟩

/- Kafka hands `endRequest` an error for the same request. -/
theorem consumed_and_cancelled :
    ¬∀ t : Requests, Reached .kafka false Any t → ∀ i < t.count, OutcomeAgrees (t.request i).log := by
  intro all
  have runs : (exec (step .kafka false) {} abortedWhileConsuming).map (fun t => (t.count, (t.request 0).log)) =
      some (1, [.endRequest (some .cancelled), .done, .consumed, .aborted, .requestStart]) := by
    decide +kernel
  obtain ⟨t, run, facts⟩ := Option.map_eq_some_iff.mp runs
  simp only [Prod.mk.injEq] at facts
  obtain ⟨count, log⟩ := facts
  have agrees := (all t (exec_steps run) 0 (by omega)).1 (some .cancelled)
  rw [log] at agrees
  have absent := (agrees (by decide)).mpr (by decide)
  cases absent

end Requests

end Sources
