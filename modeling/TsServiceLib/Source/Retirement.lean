import TsServiceLib.Source.RequestMoves

/-!
The retirement of a request. Once it has begun no callback is started, and the
handler goes on only when the running ones have ended; what the result says by
then decides about a wait that was cancelled.
-/
namespace Sources
open Transitions EventLogs

/-- What tells the handler that the result is there. -/
def Source.answer : Source → Event
  | .grpcUnary => .sent
  | _ => .done

/-- The handler is on its way through the messages and the wait. -/
def Rest.isOpen : Rest → Bool
  | .receiving | .consuming | .atEof | .waiting => true
  | _ => false

def Event.isEnd : Event → Bool
  | .endRequest _ => true
  | _ => false

def Ordering (source : Source) (hasResult : Bool) (e : Event) (before : List Event) : Prop :=
  match e with
  | .callbackStarted _ => .retireBegun ∉ before ∧ ∀ e' ∈ before, e'.isEnd = false
  | .endRequest error => (∀ c, .callbackStarted c ∈ before → .callbackEnded c ∈ before) ∧
      (∀ e' ∈ before, e'.isEnd = false) ∧ .requestStart ∈ before ∧
      (hasResult = true → .consumed ∈ before → Follows .retired source.answer before → error = none)
  | _ => True

/-- The events that mark no phase of a request. -/
def Event.plain : Event → Bool
  | .callbackStarted _ | .endRequest _ | .retireBegun | .retired | .consumed | .requestStart => false
  | _ => true

namespace Request
variable {source : Source} {hasResult : Bool} {r r' : Request}

/-- What holds of the callbacks and the log at every rest. -/
structure Core (source : Source) (hasResult : Bool) (r : Request) : Prop where
  counted : r.activeCallbacks = r.running.length
  running : ∀ c, .callbackStarted c ∈ r.log → .callbackEnded c ∈ r.log ∨ c ∈ r.running.map Running.number
  outside : r.entered = false → r.running = [] ∧ ∀ c, .callbackStarted c ∉ r.log
  begun : .retireBegun ∈ r.log → r.retiring = true
  awaited : r.resolved = true → r.retiring = true
  answered : source.answer ∈ r.log → r.completed = true
  order : Each (Ordering source hasResult) r.log

def NoEnd (log : List Event) : Prop := ∀ e ∈ log, e.isEnd = false

def HasEnd (log : List Event) : Prop := ∃ error, .endRequest error ∈ log

/-- A failure after the messages is one of the wait. -/
def Excused (r : Request) : Prop := .consumed ∈ r.log → r.failure = none ∨ r.resultWaitFailed = true

/-- The handler has not begun the request. -/
structure Unbegun (r : Request) : Prop where
  unentered : r.entered = false
  active : r.retiring = false
  unended : NoEnd r.log
  unretired : .retired ∉ r.log
  unconsumed : .consumed ∉ r.log
  unstarted : .requestStart ∉ r.log
  faultless : r.failure = none

/-- The handler is on its way to the retirement. -/
structure Open (r : Request) : Prop where
  active : r.retiring = false
  unended : NoEnd r.log
  unretired : .retired ∉ r.log
  started : .requestStart ∈ r.log
  excused : Excused r

structure Retiring (r : Request) : Prop where
  entered : r.entered = true
  retiring : r.retiring = true
  unended : NoEnd r.log
  started : .requestStart ∈ r.log
  excused : Excused r

/-- No callback runs, and none will. -/
structure Quiet (r : Request) : Prop where
  calm : r.running = []
  closed : r.entered = true → r.retiring = true

def RestOk (source : Source) (r : Request) : Prop :=
  match r.rest with
  | .beginning => Unbegun r
  | .receiving | .consuming | .atEof => Open r ∧ .consumed ∉ r.log ∧ r.failure = none
  | .waiting => Open r ∧ r.failure = none
  | .retiring => Retiring r ∧ .retired ∉ r.log ∧ (r.resolved = true ↔ r.activeCallbacks = 0)
  | .retired completed => Retiring r ∧ r.running = [] ∧
      (Follows .retired source.answer r.log → completed = true)
  | .rejecting | .ending | .closing => Quiet r ∧ HasEnd r.log
  | .ended => Quiet r ∧ (.requestStart ∈ r.log → HasEnd r.log)

structure Orderly (source : Source) (hasResult : Bool) (r : Request) : Prop where
  core : Core source hasResult r
  rest : RestOk source r

section Told

/-- What the phases of a request rest on, but for its log. -/
def stance (r : Request) : Bool × Nat × List Running × Bool × Bool × Option RequestError × Bool :=
  (r.entered, r.activeCallbacks, r.running, r.retiring, r.resolved, r.failure, r.resultWaitFailed)

/-- Only plain events have been entered, and the result may have been told. -/
structure Told (source : Source) (r r' : Request) : Prop where
  same : r'.stance = r.stance
  log : Grown Event.plain r.log r'.log
  answered : source.answer ∈ r'.log → source.answer ∈ r.log ∨ r'.completed = true
  completed : r.completed = true → r'.completed = true

theorem told_kept (same : r'.stance = r.stance) (log : r'.log = r.log)
    (completed : r.completed = true → r'.completed = true) : Told source r r' where
  same := same
  log := by
    rw [log]
    exact grown_refl _ _
  answered mem := by
    rw [log] at mem
    exact .inl mem
  completed := completed

theorem told_note {e : Event} (plain : e.plain = true) (answer : e = source.answer → r.completed = true) :
    Told source r (r.note e) where
  same := rfl
  log := grown_cons plain
  answered mem := by
    rcases List.mem_cons.mp mem with same | before
    · exact .inr (answer same.symm)
    · exact .inl before
  completed := id

theorem told_trans {r'' : Request} (first : Told source r r') (second : Told source r' r'') : Told source r r'' where
  same := second.same.trans first.same
  log := grown_trans first.log second.log
  answered mem := by
    rcases second.answered mem with old | completed
    · exact (first.answered old).imp_right second.completed
    · exact .inr completed
  completed was := second.completed (first.completed was)

theorem told_noteIf {e : Event} (condition : Bool) (plain : e.plain = true)
    (answer : e = source.answer → r.completed = true) : Told source r (r.noteIf condition e) := by
  unfold noteIf
  split
  · exact told_note plain answer
  · exact told_kept rfl rfl id

theorem plain_ordering {e : Event} (plain : e.plain = true) (before : List Event) :
    Ordering source hasResult e before := by
  cases e with
  | callbackStarted c => cases plain
  | endRequest error => cases plain
  | _ => trivial

theorem told_core (told : Told source r r') (core : Core source hasResult r) : Core source hasResult r' := by
  have same := told.same
  simp only [stance, Prod.mk.injEq] at same
  obtain ⟨entered, active, running, retiring, resolved, -, -⟩ := same
  constructor
  · rw [active, running]
    exact core.counted
  · intro c mem
    rw [running]
    exact (core.running c ((grown_mem told.log rfl).mp mem)).imp_left (grown_old told.log)
  · intro unentered
    rw [entered] at unentered
    rw [running]
    constructor
    · exact (core.outside unentered).1
    · intro c mem
      exact (core.outside unentered).2 c ((grown_mem told.log rfl).mp mem)
  · intro mem
    rw [retiring]
    exact core.begun ((grown_mem told.log rfl).mp mem)
  · rw [resolved, retiring]
    exact core.awaited
  · intro mem
    rcases told.answered mem with old | completed
    · exact told.completed (core.answered old)
    · exact completed
  · exact grown_each told.log (fun e plain => plain_ordering plain) core.order

theorem told_noEnd (told : Told source r r') (unended : NoEnd r.log) : NoEnd r'.log := by
  intro e mem
  cases e with
  | endRequest error => exact unended _ ((grown_mem told.log rfl).mp mem)
  | _ => rfl

theorem told_excused (told : Told source r r') (excused : Excused r) : Excused r' := by
  have same := told.same
  simp only [stance, Prod.mk.injEq] at same
  obtain ⟨-, -, -, -, -, failure, waitFailed⟩ := same
  intro mem
  rw [failure, waitFailed]
  exact excused ((grown_mem told.log rfl).mp mem)

theorem told_open (told : Told source r r') (opened : Open r) : Open r' where
  active := (congrArg (·.2.2.2.1) told.same).trans opened.active
  unended := told_noEnd told opened.unended
  unretired mem := opened.unretired ((grown_mem told.log rfl).mp mem)
  started := grown_old told.log opened.started
  excused := told_excused told opened.excused

theorem told_retiring (told : Told source r r') (retiring : Retiring r) : Retiring r' where
  entered := (congrArg (·.1) told.same).trans retiring.entered
  retiring := (congrArg (·.2.2.2.1) told.same).trans retiring.retiring
  unended := told_noEnd told retiring.unended
  started := grown_old told.log retiring.started
  excused := told_excused told retiring.excused

theorem told_quiet (told : Told source r r') (quiet : Quiet r) : Quiet r' := by
  have same := told.same
  simp only [stance, Prod.mk.injEq] at same
  obtain ⟨entered, -, running, retiring, -⟩ := same
  constructor
  · rw [running]
    exact quiet.calm
  · rw [entered, retiring]
    exact quiet.closed

theorem told_hasEnd (told : Told source r r') (hasEnd : HasEnd r.log) : HasEnd r'.log := by
  obtain ⟨error, mem⟩ := hasEnd
  exact ⟨error, grown_old told.log mem⟩

theorem told_unbegun (told : Told source r r') (unbegun : Unbegun r) : Unbegun r' := by
  have same := told.same
  simp only [stance, Prod.mk.injEq] at same
  obtain ⟨entered, -, -, retiring, -, failure, -⟩ := same
  constructor
  · rw [entered]
    exact unbegun.unentered
  · rw [retiring]
    exact unbegun.active
  · exact told_noEnd told unbegun.unended
  · exact fun mem => unbegun.unretired ((grown_mem told.log rfl).mp mem)
  · exact fun mem => unbegun.unconsumed ((grown_mem told.log rfl).mp mem)
  · exact fun mem => unbegun.unstarted ((grown_mem told.log rfl).mp mem)
  · rw [failure]
    exact unbegun.faultless

theorem told_orderly (told : Told source r r') (rest : r'.rest = r.rest) (orderly : Orderly source hasResult r) :
    Orderly source hasResult r' := by
  have same := told.same
  simp only [stance, Prod.mk.injEq] at same
  obtain ⟨-, active, running, -, resolved, failure, -⟩ := same
  refine ⟨told_core told orderly.core, ?_⟩
  have ok := orderly.rest
  unfold RestOk at ok ⊢
  rw [rest]
  generalize r.rest = place at ok ⊢
  cases place with
  | beginning => exact told_unbegun told ok
  | receiving | consuming | atEof =>
    exact ⟨told_open told ok.1, fun mem => ok.2.1 ((grown_mem told.log rfl).mp mem), failure.trans ok.2.2⟩
  | waiting => exact ⟨told_open told ok.1, failure.trans ok.2⟩
  | retiring =>
    dsimp only
    rw [resolved, active]
    exact ⟨told_retiring told ok.1, fun mem => ok.2.1 ((grown_mem told.log rfl).mp mem), ok.2.2⟩
  | retired completed =>
    dsimp only
    rw [running, grown_follows told.log rfl]
    exact ⟨told_retiring told ok.1, ok.2.1, ok.2.2⟩
  | rejecting | ending | closing => exact ⟨told_quiet told ok.1, told_hasEnd told ok.2⟩
  | ended => exact ⟨told_quiet told ok.1, fun mem => told_hasEnd told (ok.2 ((grown_mem told.log rfl).mp mem))⟩

theorem done_told : Told source r (r.done source) := by
  unfold done
  split
  · rename_i unary
    apply told_note rfl
    intro same
    subst unary
    cases same
  · have completes : Told source r { r with completed := true, race := ((r.note .done).complete source).race } :=
      told_kept rfl rfl (fun _ => rfl)
    exact told_trans completes (told_note rfl (fun _ => rfl))

theorem send_told : Told source r (r.send source) := by
  unfold send
  split
  · exact told_kept rfl rfl id
  · split
    · have completes : Told source r
          { r with sent := true, completed := true, race := (({ r with sent := true }.note .sent).complete source).race } :=
        told_kept rfl rfl (fun _ => rfl)
      exact told_trans completes (told_note rfl (fun _ => rfl))
    · rename_i other
      have sends : Told source r { r with sent := true } := told_kept rfl rfl id
      apply told_trans (told_trans sends (told_note (e := .sent) rfl _)) done_told
      intro same
      cases source with
      | grpcUnary => exact absurd rfl other
      | _ => cases same

theorem setResultCallback_told (messageId : String) (callback : Nat) :
    Told source r (r.setResultCallback source messageId callback) := by
  unfold setResultCallback
  split <;> exact told_kept rfl rfl id

theorem abort_told : Told source r r.abort := by
  have cancels : Told source r { r with cancelled := true, race := r.abort.race } := told_kept rfl rfl id
  apply told_trans cancels
  apply told_note (e := .aborted) rfl
  intro same
  cases source <;> cases same

theorem finish_told : Told source r r.finish := by
  have ends : Told source r { r with rest := .ended } := told_kept rfl rfl id
  have spans : Told source { r with rest := .ended } ({ r with rest := .ended }.noteIf r.sampled .spanEnd) := by
    apply told_noteIf r.sampled rfl
    intro same
    cases source <;> cases same
  have same : r.finish = { r with rest := .ended }.noteIf r.sampled .spanEnd := by
    unfold finish noteIf
    split <;> rfl
  rw [same]
  exact told_trans ends spans

end Told

section Phases

theorem noEnd_note {e : Event} (other : e.isEnd = false) (unended : NoEnd r.log) : NoEnd (r.note e).log := by
  intro e' mem
  rcases List.mem_cons.mp mem with same | before
  · rw [same]
    exact other
  · exact unended e' before

theorem open_note {e : Event} (opened : Open r) (other : e.isEnd = false) (unretired : .retired ≠ e)
    (unconsumed : .consumed ≠ e) : Open (r.note e) where
  active := opened.active
  unended := noEnd_note other opened.unended
  unretired mem := opened.unretired (mem_note mem unretired)
  started := List.mem_cons_of_mem e opened.started
  excused mem := opened.excused (mem_note mem unconsumed)

theorem retiring_note {e : Event} (retiring : Retiring r) (other : e.isEnd = false) (unconsumed : .consumed ≠ e) :
    Retiring (r.note e) where
  entered := retiring.entered
  retiring := retiring.retiring
  unended := noEnd_note other retiring.unended
  started := List.mem_cons_of_mem e retiring.started
  excused mem := retiring.excused (mem_note mem unconsumed)

theorem note_core {e : Event} (core : Core source hasResult r) (ordering : Ordering source hasResult e r.log)
    (starts : ∀ c, .callbackStarted c ≠ e) (retire : .retireBegun = e → r.retiring = true)
    (answer : source.answer = e → r.completed = true) : Core source hasResult (r.note e) := by
  constructor
  · exact core.counted
  · intro c mem
    exact (core.running c (mem_note mem (starts c))).imp_left (List.mem_cons_of_mem _)
  · intro unentered
    exact ⟨(core.outside unentered).1, fun c mem => (core.outside unentered).2 c (mem_note mem (starts c))⟩
  · intro mem
    rcases List.mem_cons.mp mem with same | before
    · exact retire same
    · exact core.begun before
  · exact core.awaited
  · intro mem
    rcases List.mem_cons.mp mem with same | before
    · exact answer same
    · exact core.answered before
  · exact each_cons ordering core.order

/-- The marks of the handler may be entered at any time. -/
theorem mark_core {e : Event} (core : Core source hasResult r)
    (marks : e = .requestStart ∨ e = .consumed ∨ e = .retired) : Core source hasResult (r.note e) := by
  rcases marks with same | same | same <;> subst same
  all_goals
    apply note_core core
    · trivial
    · exact nofun
    · exact nofun
    · cases source <;> nofun

theorem end_core {error : Option RequestError} (core : Core source hasResult r) (calm : r.running = [])
    (unended : NoEnd r.log) (started : .requestStart ∈ r.log)
    (right : hasResult = true → .consumed ∈ r.log → Follows .retired source.answer r.log → error = none) :
    Core source hasResult (r.note (.endRequest error)) := by
  have callbacks : ∀ c, .callbackStarted c ∈ r.log → .callbackEnded c ∈ r.log := by
    intro c mem
    rcases core.running c mem with ended | running
    · exact ended
    · rw [calm] at running
      cases running
  apply note_core core
  · exact ⟨callbacks, unended, started, right⟩
  · exact nofun
  · exact nofun
  · cases source <;> nofun

theorem callEnd_orderly (core : Core source hasResult r) (quiet : Quiet r) (unended : NoEnd r.log)
    (started : .requestStart ∈ r.log)
    (right : hasResult = true → .consumed ∈ r.log → Follows .retired source.answer r.log → r.failure = none) :
    Orderly source hasResult r.callEnd where
  core := { end_core core quiet.calm unended started right with }
  rest := ⟨{ quiet with }, r.failure, List.mem_cons_self⟩

theorem finishRetire_orderly (core : Core source hasResult r) (retiring : Retiring r) (calm : r.running = [])
    (unretired : .retired ∉ r.log) : Orderly source hasResult (r.finishRetire source) := by
  have noted : Core source hasResult (r.note .retired) := mark_core core (.inr (.inr rfl))
  have still : Retiring (r.note .retired) := retiring_note retiring rfl nofun
  refine ⟨{ noted with }, { still with }, calm, ?_⟩
  intro follows
  rcases follows_cons.mp follows with ⟨-, answered⟩ | older
  · exact core.answered answered
  · exact absurd (follows_mem older).1 unretired

theorem retire_orderly (core : Core source hasResult r) (opened : Open r) (entered : r.entered = true) :
    Orderly source hasResult (r.retire source) := by
  have marked : Core source hasResult { r with retiring := true } :=
    { core with begun := fun _ => rfl, awaited := fun _ => rfl }
  have begun : Core source hasResult ({ r with retiring := true }.note .retireBegun) := by
    apply note_core marked
    · trivial
    · exact nofun
    · exact fun _ => rfl
    · cases source <;> nofun
  have retiring : Retiring ({ r with retiring := true }.note .retireBegun) := by
    constructor
    · exact entered
    · rfl
    · exact noEnd_note rfl opened.unended
    · exact List.mem_cons_of_mem _ opened.started
    · exact fun mem => opened.excused (mem_note mem nofun)
  have unretired : .retired ∉ (r.note .retireBegun).log := fun mem => opened.unretired (mem_note mem nofun)
  unfold retire
  split
  · rename_i busy
    refine ⟨{ begun with }, { retiring with }, unretired, ?_⟩
    constructor
    · intro resolved
      have early := core.awaited resolved
      rw [opened.active] at early
      cases early
    · exact fun none => absurd none busy
  · rename_i idle
    have none : r.activeCallbacks = 0 := by omega
    apply finishRetire_orderly begun retiring _ unretired
    exact List.eq_nil_of_length_eq_zero (core.counted.symm.trans none)

theorem leave_orderly (core : Core source hasResult r) (opened : Open r) :
    Orderly source hasResult (r.leave source) := by
  unfold leave
  split
  · rename_i entered
    exact retire_orderly core opened entered
  · rename_i outside
    have unentered : r.entered = false := Bool.eq_false_iff.mpr outside
    apply callEnd_orderly core _ opened.unended opened.started
    · intro _ _ follows
      exact absurd (follows_mem follows).1 opened.unretired
    · constructor
      · exact (core.outside unentered).1
      · intro entered
        exact absurd entered outside

theorem fail_orderly (core : Core source hasResult r) (opened : Open r) (unconsumed : .consumed ∉ r.log)
    (error : RequestError) : Orderly source hasResult (r.fail source error) := by
  have failed : Open { r with failure := some error } :=
    { opened with excused := fun mem => absurd mem unconsumed }
  exact leave_orderly { core with } failed

theorem waitFails_orderly (core : Core source hasResult r) (opened : Open r) :
    Orderly source hasResult (r.waitFails source) := by
  have failed : Open { r with resultWaitFailed := true, failure := some .cancelled } :=
    { opened with excused := fun _ => .inr rfl }
  exact leave_orderly { core with } failed

theorem wait_orderly (core : Core source hasResult r) (opened : Open r) (faultless : r.failure = none) :
    Orderly source hasResult (r.wait source) := by
  unfold wait
  split
  · exact waitFails_orderly core opened
  · split
    · exact leave_orderly core opened
    · exact ⟨{ core with }, { opened with }, faultless⟩

theorem consumed_orderly (core : Core source hasResult r) (opened : Open r) (faultless : r.failure = none) :
    Orderly source hasResult (r.consumed source hasResult) := by
  have noted : Core source hasResult (r.note .consumed) := mark_core core (.inr (.inl rfl))
  have still : Open (r.note .consumed) := by
    constructor
    · exact opened.active
    · exact noEnd_note rfl opened.unended
    · exact fun mem => opened.unretired (mem_note mem nofun)
    · exact List.mem_cons_of_mem _ opened.started
    · exact fun _ => .inl faultless
  have done : Told source (r.note .consumed) ((r.note .consumed).done source) := done_told
  have sent : Told source (r.note .consumed) ((r.note .consumed).send source) := send_told
  unfold consumed
  dsimp only
  split <;> split
  · exact wait_orderly noted still faultless
  · apply wait_orderly (told_core done noted) (told_open done still)
    exact (congrArg (·.2.2.2.2.2.1) done.same).trans faultless
  · exact wait_orderly noted still faultless
  · exact leave_orderly (told_core sent noted) (told_open sent still)
  · exact wait_orderly noted still faultless
  · exact leave_orderly noted still

theorem begun_open (core : Core source hasResult r) (unbegun : Unbegun r) :
    Core source hasResult (r.note .requestStart) ∧ Open (r.note .requestStart) := by
  constructor
  · exact mark_core core (.inl rfl)
  · constructor
    · exact unbegun.active
    · exact noEnd_note rfl unbegun.unended
    · exact fun mem => unbegun.unretired (mem_note mem nofun)
    · exact List.mem_cons_self
    · exact fun _ => .inl unbegun.faultless

theorem firstMessage_orderly (core : Core source hasResult r) (opened : Open r) (unconsumed : .consumed ∉ r.log)
    (faultless : r.failure = none) : Orderly source hasResult (r.firstMessage source) := by
  unfold firstMessage
  split
  · exact ⟨{ core with }, { opened with }, unconsumed, faultless⟩
  · exact ⟨{ core with }, { opened with }, unconsumed, faultless⟩

theorem entered_orderly (core : Core source hasResult r) (unbegun : Unbegun r) :
    Orderly source hasResult
      (({ r.note .requestStart with entered := true }.noteIf hasResult .pendingAdd).firstMessage source) := by
  obtain ⟨begun, opened⟩ := begun_open core unbegun
  have inside : Core source hasResult { r.note .requestStart with entered := true } :=
    { begun with outside := nofun }
  have added : Told source { r.note .requestStart with entered := true }
      ({ r.note .requestStart with entered := true }.noteIf hasResult .pendingAdd) := by
    apply told_noteIf hasResult rfl
    intro same
    cases source <;> cases same
  apply firstMessage_orderly (told_core added inside) (told_open added { opened with })
  · intro mem
    exact unbegun.unconsumed (mem_note ((grown_mem added.log rfl).mp mem) nofun)
  · exact (congrArg (·.2.2.2.2.2.1) added.same).trans unbegun.faultless

theorem refuse_orderly (core : Core source hasResult r) (unbegun : Unbegun r) :
    Orderly source hasResult ((r.note .requestStart).refuse source) := by
  obtain ⟨begun, opened⟩ := begun_open core unbegun
  have refused : Told source (r.note .requestStart) ((r.note .requestStart).note .duplicate) := by
    apply told_note rfl
    intro same
    cases source <;> cases same
  have calm : r.running = [] := (core.outside unbegun.unentered).1
  have unentered : r.entered ≠ true := by
    rw [unbegun.unentered]
    decide
  have noted := told_core refused begun
  have still := told_open refused opened
  have unconsumed : .consumed ∉ ((r.note .requestStart).note .duplicate).log := fun mem =>
    unbegun.unconsumed (mem_note (mem_note mem nofun) nofun)
  have ended : Core source hasResult
      (((r.note .requestStart).note .duplicate).note (.endRequest (some .duplicate))) := by
    apply end_core noted calm still.unended still.started
    intro _ consumed
    exact absurd consumed unconsumed
  have quiet : Quiet r := ⟨calm, fun entered => absurd entered unentered⟩
  have hasEnd : HasEnd (((r.note .requestStart).note .duplicate).note (.endRequest (some .duplicate))).log :=
    ⟨some .duplicate, List.mem_cons_self⟩
  cases source with
  | kafka | custom => exact ⟨{ ended with }, { quiet with }, hasEnd⟩
  | _ => exact ⟨{ ended with }, { quiet with }, hasEnd⟩

end Phases

section Callbacks

theorem restOk_open (isOpen : r.rest.isOpen = true) :
    RestOk source r ↔ Open r ∧ (r.rest ≠ .waiting → .consumed ∉ r.log) ∧ r.failure = none := by
  unfold RestOk
  generalize r.rest = rest at isOpen ⊢
  cases rest with
  | receiving | consuming | atEof | waiting => simp
  | _ => cases isOpen

/-- A callback can be started only on the way to the retirement. -/
theorem active_isOpen (orderly : Orderly source hasResult r) (entered : r.entered = true)
    (active : r.retiring = false) : r.rest.isOpen = true := by
  have ok := orderly.rest
  have busy : r.retiring ≠ true := by
    rw [active]
    decide
  unfold RestOk at ok
  generalize r.rest = rest at ok ⊢
  cases rest with
  | beginning =>
    rw [ok.unentered] at entered
    cases entered
  | receiving | consuming | atEof | waiting => rfl
  | retiring => exact absurd ok.1.retiring busy
  | retired completed => exact absurd ok.1.retiring busy
  | rejecting | ending | closing | ended => exact absurd (ok.1.closed entered) busy

/-- A callback runs only until the retirement has been completed. -/
theorem running_isOpen (orderly : Orderly source hasResult r) (busy : r.running ≠ []) :
    r.rest.isOpen = true ∨ r.rest = .retiring := by
  have ok := orderly.rest
  unfold RestOk at ok
  generalize r.rest = rest at ok ⊢
  cases rest with
  | beginning => exact absurd (orderly.core.outside ok.unentered).1 busy
  | receiving | consuming | atEof | waiting => exact .inl rfl
  | retiring => exact .inr rfl
  | retired completed => exact absurd ok.2.1 busy
  | rejecting | ending | closing | ended => exact absurd ok.1.calm busy

theorem deliver_orderly (orderly : Orderly source hasResult r) (entered : r.entered = true) (messageId : String) :
    Orderly source hasResult (r.deliver messageId) := by
  unfold deliver
  split
  · exact orderly
  · rename_i still
    have active : r.retiring = false := Bool.eq_false_iff.mpr still
    split
    · exact orderly
    · have isOpen := active_isOpen orderly entered active
      obtain ⟨opened, unconsumed, faultless⟩ := (restOk_open isOpen).mp orderly.rest
      have noted : Open (r.note (.callbackStarted r.nextCallback)) := open_note opened rfl nofun nofun
      have core := orderly.core
      constructor
      · constructor
        · simp only [List.length_cons, core.counted]
        · intro c mem
          rcases List.mem_cons.mp mem with same | before
          · cases same
            right
            simp
          · rcases core.running c before with ended | running
            · exact .inl (List.mem_cons_of_mem _ ended)
            · exact .inr (List.mem_cons_of_mem _ running)
        · intro unentered
          exact absurd entered (Bool.eq_false_iff.mp unentered)
        · intro mem
          exact core.begun (mem_note mem nofun)
        · exact core.awaited
        · intro mem
          exact core.answered (mem_note mem (by cases source <;> nofun))
        · apply each_cons _ core.order
          constructor
          · intro begun
            exact still (core.begun begun)
          · exact opened.unended
      · apply (restOk_open _).mpr
        · refine ⟨{ noted with }, ?_, faultless⟩
          exact fun early mem => unconsumed early (mem_note mem nofun)
        · exact isOpen

theorem callbackEnds_orderly {c : Running} {remove : Bool} (ended : r.callbackEnds c remove = some r')
    (orderly : Orderly source hasResult r) : Orderly source hasResult r' := by
  unfold callbackEnds at ended
  split at ended
  · rename_i mem
    cases ended
    have core := orderly.core
    have busy : r.running ≠ [] := List.ne_nil_of_mem mem
    have shorter : (r.running.erase c).length = r.running.length - 1 := List.length_erase_of_mem mem
    have some_running : 0 < r.running.length := List.length_pos_iff.mpr busy
    constructor
    · constructor
      · simp only [shorter, core.counted]
      · intro c' started
        rcases core.running c' (mem_note started nofun) with ended | running
        · exact .inl (List.mem_cons_of_mem _ ended)
        · by_cases same : c' = c.number
          · rw [same]
            exact .inl List.mem_cons_self
          · right
            obtain ⟨other, among, number⟩ := List.mem_map.mp running
            apply List.mem_map.mpr
            refine ⟨other, (List.mem_erase_of_ne ?_).mpr among, number⟩
            intro equal
            rw [equal] at number
            exact same number.symm
      · intro unentered
        exact absurd (core.outside unentered).1 busy
      · intro begun
        exact core.begun (mem_note begun nofun)
      · intro resolved
        rcases Bool.or_eq_true_iff.mp resolved with before | now
        · exact core.awaited before
        · exact (Bool.and_eq_true_iff.mp now).1
      · intro answer
        exact core.answered (mem_note answer (by cases source <;> nofun))
      · exact each_cons trivial core.order
    · rcases running_isOpen orderly busy with isOpen | retiring
      · obtain ⟨opened, unconsumed, faultless⟩ := (restOk_open isOpen).mp orderly.rest
        have noted : Open (r.note (.callbackEnded c.number)) := open_note opened rfl nofun nofun
        apply (restOk_open _).mpr
        · refine ⟨{ noted with }, ?_, faultless⟩
          exact fun early mem => unconsumed early (mem_note mem nofun)
        · exact isOpen
      · have ok := orderly.rest
        unfold RestOk at ok ⊢
        simp only [note, retiring] at ok ⊢
        obtain ⟨retiring, unretired, resolved⟩ := ok
        have unresolved : r.resolved = false := by
          have counted := core.counted
          cases was : r.resolved with
          | false => rfl
          | true =>
            have none := resolved.mp was
            omega
        have noted : Retiring (r.note (.callbackEnded c.number)) := retiring_note retiring rfl nofun
        refine ⟨{ noted with }, fun mem => unretired (mem_note mem nofun), ?_⟩
        simp [unresolved, retiring.retiring]
  · cases ended

end Callbacks

section Ends

theorem plain_told {e : Event} (plain : e.plain = true) (other : source.answer ≠ e) : Told source r (r.note e) :=
  told_note plain (fun same => absurd same.symm other)

theorem goesOn_orderly {completed : Bool} (rest : r.rest = .retired completed)
    (orderly : Orderly source hasResult r) (told : Told source (r.excuse completed) r') :
    Orderly source hasResult r'.callEnd := by
  have ok := orderly.rest
  unfold RestOk at ok
  rw [rest] at ok
  obtain ⟨retiring, calm, answered⟩ := ok
  have excused : Core source hasResult (r.excuse completed) ∧ Quiet (r.excuse completed) ∧
      (r.excuse completed).log = r.log ∧ (.consumed ∈ r.log → completed = true → (r.excuse completed).failure = none) := by
    unfold excuse
    split
    · exact ⟨{ orderly.core with }, ⟨calm, fun _ => retiring.retiring⟩, rfl, fun _ _ => rfl⟩
    · rename_i unexcused
      refine ⟨orderly.core, ⟨calm, fun _ => retiring.retiring⟩, rfl, ?_⟩
      intro consumed isCompleted
      rcases retiring.excused consumed with faultless | waitFailed
      · exact faultless
      · exact absurd ⟨waitFailed, isCompleted⟩ unexcused
  obtain ⟨core, quiet, log, faultless⟩ := excused
  apply callEnd_orderly (told_core told core) (told_quiet told quiet)
  · apply told_noEnd told
    rw [log]
    exact retiring.unended
  · apply grown_old told.log
    rw [log]
    exact retiring.started
  · intro _ consumed follows
    have failure : r'.failure = (r.excuse completed).failure := congrArg (·.2.2.2.2.2.1) told.same
    rw [grown_mem told.log rfl, log] at consumed
    rw [grown_follows told.log rfl, log] at follows
    rw [failure]
    exact faultless consumed (answered follows)

theorem finish_orderly (core : Core source hasResult r) (quiet : Quiet r)
    (hasEnd : .requestStart ∈ r.log → HasEnd r.log) : Orderly source hasResult r.finish := by
  have told : Told source r r.finish := finish_told
  refine ⟨told_core told core, told_quiet told quiet, ?_⟩
  intro mem
  exact told_hasEnd told (hasEnd ((grown_mem told.log rfl).mp mem))

theorem close_orderly (core : Core source hasResult r) (quiet : Quiet r) (hasEnd : HasEnd r.log) :
    Orderly source hasResult (r.close source hasResult) := by
  have ended : Told source r (r.note (.requestEnd r.failure)) := plain_told rfl (by cases source <;> nofun)
  have removed : Told source (r.note (.requestEnd r.failure))
      ((r.note (.requestEnd r.failure)).noteIf (source.grpc && r.entered && hasResult) .pendingRemove) :=
    told_noteIf _ rfl (by cases source <;> nofun)
  have told := told_trans ended removed
  exact finish_orderly (told_core told core) (told_quiet told quiet) (fun _ => told_hasEnd told hasEnd)

theorem ends_orderly {succeeds : Bool} (ended : r.ends source hasResult succeeds = some r')
    (orderly : Orderly source hasResult r) : Orderly source hasResult r' := by
  have settled : Told source r (r.note (.endSettled succeeds)) := plain_told rfl (by cases source <;> nofun)
  have core := told_core settled orderly.core
  have ok := orderly.rest
  unfold RestOk at ok
  unfold ends at ended
  dsimp only at ended
  split at ended
  · rename_i rest
    rw [rest] at ok
    obtain ⟨quiet, hasEnd⟩ := ok
    have accounted : Told source (r.note (.endSettled succeeds))
        ((r.note (.endSettled succeeds)).note (.requestEnd r.failure)) := plain_told rfl (by cases source <;> nofun)
    cases ended
    split
    · have told := told_trans settled accounted
      exact finish_orderly (told_core told orderly.core) (told_quiet told quiet) (fun _ => told_hasEnd told hasEnd)
    · exact finish_orderly core (told_quiet settled quiet) (fun _ => told_hasEnd settled hasEnd)
  · rename_i rest
    rw [rest] at ok
    obtain ⟨quiet, hasEnd⟩ := ok
    have noted : HasEnd (r.note (.endSettled succeeds)).log := told_hasEnd settled hasEnd
    split at ended
    · cases ended
      split <;> exact ⟨{ core with }, { quiet with }, noted⟩
    · cases ended
      apply close_orderly
      · split
        · exact { core with }
        · exact core
      · split <;> exact { quiet with }
      · split <;> exact noted
  · cases ended

end Ends

theorem fresh_orderly (streamId : String) (cancelled sampled : Bool) :
    Orderly source hasResult (fresh streamId cancelled sampled) := by
  have bare : Orderly source hasResult { streamId := streamId, sampled := sampled, cancelled := cancelled } := by
    constructor
    · constructor <;> first | exact each_nil _ | simp
    · constructor <;> simp [NoEnd]
  have aborted : Told source ({ streamId := streamId, sampled := sampled, cancelled := cancelled } : Request)
      (({ streamId := streamId, sampled := sampled, cancelled := cancelled } : Request).noteIf cancelled .aborted) :=
    told_noteIf cancelled rfl (by cases source <;> nofun)
  have told : Told source ({ streamId := streamId, sampled := sampled, cancelled := cancelled } : Request)
      (fresh streamId cancelled sampled) :=
    told_trans aborted (told_noteIf sampled rfl (by cases source <;> nofun))
  apply told_orderly told _ bare
  cases cancelled <;> cases sampled <;> rfl

theorem moves_orderly (moves : Moves source hasResult r r') (orderly : Orderly source hasResult r) :
    Orderly source hasResult r' := by
  have core := orderly.core
  have ok := orderly.rest
  unfold RestOk at ok
  cases moves with
  | beginFails rest =>
    rw [rest] at ok
    have told : Told source r (r.note .beginFailed) := plain_told rfl (by cases source <;> nofun)
    apply finish_orderly (told_core told core)
    · constructor
      · exact (core.outside ok.unentered).1
      · intro entered
        exact absurd entered (Bool.eq_false_iff.mp ok.unentered)
    · exact fun mem => absurd ((grown_mem told.log rfl).mp mem) ok.unstarted
  | refused rest enters =>
    rw [rest] at ok
    exact refuse_orderly core ok
  | entered rest enters =>
    rw [rest] at ok
    exact entered_orderly core ok
  | started rest enters =>
    rw [rest] at ok
    obtain ⟨begun, opened⟩ := begun_open core ok
    exact firstMessage_orderly begun opened (fun mem => ok.unconsumed (mem_note mem nofun)) ok.faultless
  | message rest =>
    rw [rest] at ok
    exact ⟨{ core with }, { ok.1 with }, ok.2⟩
  | noMessage rest =>
    rw [rest] at ok
    exact ⟨{ core with }, { ok.1 with }, ok.2⟩
  | fails rest =>
    rcases rest with rest | rest | rest <;> rw [rest] at ok <;> exact fail_orderly core ok.1 ok.2.1 .handler
  | next rest streams =>
    rw [rest] at ok
    exact ⟨{ core with }, { ok.1 with }, ok.2⟩
  | toEof rest grpc =>
    rw [rest] at ok
    exact ⟨{ core with }, { ok.1 with }, ok.2⟩
  | consumed rest =>
    rcases rest with rest | rest <;> rw [rest] at ok <;> exact consumed_orderly core ok.1 ok.2.2
  | hearsDone rest completed race =>
    have told : Told source r { r with race := some true } := told_kept rfl rfl id
    exact told_orderly told rfl orderly
  | waited rest race =>
    rw [rest] at ok
    exact leave_orderly core ok.1
  | waitFails rest race =>
    rw [rest] at ok
    exact waitFails_orderly core ok.1
  | retires rest resolved =>
    rw [rest] at ok
    obtain ⟨retiring, unretired, none⟩ := ok
    apply finishRetire_orderly core retiring _ unretired
    exact List.eq_nil_of_length_eq_zero (core.counted.symm.trans (none.mp resolved))
  | goesOn rest grpc => exact goesOn_orderly rest orderly (plain_told rfl (by cases source <;> nofun))
  | goesOnEntered rest grpc => exact goesOn_orderly rest orderly (told_kept rfl rfl id)
  | ends succeeds ended => exact ends_orderly ended orderly
  | closes rest =>
    rw [rest] at ok
    exact close_orderly core ok.1 ok.2
  | delivers messageId entered => exact deliver_orderly orderly entered messageId
  | callbackEnds c remove ended => exact callbackEnds_orderly ended orderly
  | setsCallback messageId callback =>
    apply told_orderly (setResultCallback_told messageId callback) _ orderly
    unfold setResultCallback
    split <;> rfl
  | done =>
    apply told_orderly done_told _ orderly
    unfold done
    split <;> rfl
  | sends =>
    apply told_orderly send_told _ orderly
    unfold send done
    split
    · rfl
    · split <;> rfl
  | aborts cancelled => exact told_orderly abort_told rfl orderly

end Request

end Sources
