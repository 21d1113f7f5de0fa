import TsServiceLib.Source.RequestMoves

/-!
The accounts of a request: how often it was entered as started and as ended, as
pending and as removed, and its span. At the end of a request they balance, but
for one kind of request: the Kafka and custom handlers do not account for the
end of a refused request whose `endRequest` rejects.
-/
namespace Sources
open Transitions EventLogs

/-- These handlers call `endRequest` for a refused request on a way of its own. -/
def Source.refusesApart : Source → Bool
  | .kafka | .custom => true
  | _ => false

def Event.isRequestEnd : Event → Bool
  | .requestEnd _ => true
  | _ => false

/-- Every start, every entry and every span has its one end. -/
structure Balanced (log : List Event) : Prop where
  requests : Paired .requestStart Event.isRequestEnd log
  pending : Paired .pendingAdd (· == .pendingRemove) log
  spans : Paired .spanStart (· == .spanEnd) log

/-- The events that no account is kept of. -/
def Event.silent : Event → Bool
  | .spanStart | .spanEnd | .requestStart | .requestEnd _ | .pendingAdd | .pendingRemove | .duplicate | .endSettled _ =>
    false
  | _ => true

/-- An end comes after its start. -/
def Accounting (e : Event) (before : List Event) : Prop :=
  match e with
  | .requestEnd _ => .requestStart ∈ before
  | .pendingRemove => .pendingAdd ∈ before
  | .spanEnd => .spanStart ∈ before
  | _ => True

/-- Starts, ends, removals and ended spans. -/
def tally (log : List Event) : Nat × Nat × Nat × Nat :=
  (log.count .requestStart, log.countP Event.isRequestEnd, log.count .pendingRemove, log.count .spanEnd)

theorem balanced_iff {log : List Event} (order : Each Accounting log) (starts : log.count .requestStart ≤ 1)
    (adds : log.count .pendingAdd ≤ 1) (spans : log.count .spanStart ≤ 1) :
    Balanced log ↔ log.countP Event.isRequestEnd = log.count .requestStart ∧
      log.count .pendingRemove = log.count .pendingAdd ∧ log.count .spanEnd = log.count .spanStart := by
  have ends : ∀ e before, Accounting e before → e.isRequestEnd = true → .requestStart ∈ before := by
    intro e before ordering isEnd
    cases e with
    | requestEnd error => exact ordering
    | _ => cases isEnd
  have removals : ∀ e before, Accounting e before → (e == .pendingRemove) = true → .pendingAdd ∈ before := by
    intro e before ordering isEnd
    rw [eq_of_beq isEnd] at ordering
    exact ordering
  have closings : ∀ e before, Accounting e before → (e == .spanEnd) = true → .spanStart ∈ before := by
    intro e before ordering isEnd
    rw [eq_of_beq isEnd] at ordering
    exact ordering
  have requests := paired_iff rfl (each_mono ends order) starts
  have pending := paired_iff rfl (each_mono removals order) adds
  have spanned := paired_iff rfl (each_mono closings order) spans
  constructor
  · intro balanced
    exact ⟨requests.mp balanced.requests, pending.mp balanced.pending, spanned.mp balanced.spans⟩
  · rintro ⟨counted, removed, closed⟩
    exact ⟨requests.mpr counted, pending.mpr removed, spanned.mpr closed⟩

namespace Request
variable {source : Source} {hasResult : Bool} {r r' : Request}

/-- What holds of the accounts at every rest. -/
structure Kept (source : Source) (hasResult : Bool) (r : Request) : Prop where
  added : r.log.count .pendingAdd = (r.entered && hasResult).toNat
  spanned : r.log.count .spanStart = r.sampled.toNat
  enters : r.entered = true → source.enters hasResult = true
  order : Each Accounting r.log

/-- The request has been started and nothing has been ended. -/
def Underway (r : Request) : Prop := tally r.log = (1, 0, 0, 0) ∧ .duplicate ∉ r.log

/-- `endRequest` has rejected for a request that was refused. -/
def Unaccounted (source : Source) (r : Request) : Prop :=
  source.refusesApart = true ∧ .duplicate ∈ r.log ∧ .endSettled false ∈ r.log

def AccountsAt (source : Source) (hasResult : Bool) (r : Request) : Prop :=
  match r.rest with
  | .beginning => tally r.log = (0, 0, 0, 0) ∧ .duplicate ∉ r.log ∧ .endSettled false ∉ r.log ∧ r.entered = false
  | .receiving | .consuming | .atEof | .waiting => Underway r
  | .retiring | .retired _ => Underway r ∧ r.entered = true
  | .rejecting => tally r.log = (1, 0, 0, 0) ∧ r.entered = false ∧ source.refusesApart = true ∧
      .duplicate ∈ r.log ∧ .endSettled false ∉ r.log
  | .ending | .closing => tally r.log = (1, 0, (r.entered && hasResult && !source.grpc).toNat, 0) ∧
      (source.refusesApart = true → .duplicate ∉ r.log)
  | .ended => r.log.count .requestStart ≤ 1 ∧ r.log.count .pendingRemove = (r.entered && hasResult).toNat ∧
      r.log.count .spanEnd = r.sampled.toNat ∧
      (r.log.countP Event.isRequestEnd = r.log.count .requestStart ↔ ¬Unaccounted source r)

structure Accounted (source : Source) (hasResult : Bool) (r : Request) : Prop where
  kept : Kept source hasResult r
  rest : AccountsAt source hasResult r

section Silence

/-- Nothing was entered that is accounted for. -/
structure Silent (r r' : Request) : Prop where
  entered : r'.entered = r.entered
  sampled : r'.sampled = r.sampled
  log : Grown Event.silent r.log r'.log

/-- What the accounts read besides the rest. -/
def books (r : Request) := (r.entered, r.sampled, r.log)

theorem silent_kept_log (same : r'.books = r.books) : Silent r r' := by
  obtain ⟨entered, sampled, log⟩ : r'.entered = r.entered ∧ r'.sampled = r.sampled ∧ r'.log = r.log := by
    simpa only [books, Prod.mk.injEq] using same
  constructor
  · exact entered
  · exact sampled
  · rw [log]
    exact grown_refl _ _

theorem silent_note {e : Event} (silent : e.silent = true) : Silent r (r.note e) where
  entered := rfl
  sampled := rfl
  log := grown_cons silent

theorem silent_trans {r'' : Request} (first : Silent r r') (second : Silent r' r'') : Silent r r'' where
  entered := second.entered.trans first.entered
  sampled := second.sampled.trans first.sampled
  log := grown_trans first.log second.log

theorem silent_count {e : Event} (counted : e.silent = false) {log log' : List Event}
    (grown : Grown Event.silent log log') : log'.count e = log.count e := by
  apply grown_countP grown
  intro e' silent
  apply beq_false_of_ne
  intro same
  rw [same, counted] at silent
  cases silent

theorem silent_tally {log log' : List Event} (grown : Grown Event.silent log log') : tally log' = tally log := by
  have ends : log'.countP Event.isRequestEnd = log.countP Event.isRequestEnd := by
    apply grown_countP grown
    intro e silent
    cases e with
    | requestEnd error => cases silent
    | _ => rfl
  simp only [tally, ends, silent_count (e := .requestStart) rfl grown, silent_count (e := .pendingRemove) rfl grown,
    silent_count (e := .spanEnd) rfl grown]

theorem silent_kept (silent : Silent r r') (kept : Kept source hasResult r) : Kept source hasResult r' := by
  constructor
  · rw [silent_count rfl silent.log, silent.entered]
    exact kept.added
  · rw [silent_count rfl silent.log, silent.sampled]
    exact kept.spanned
  · rw [silent.entered]
    exact kept.enters
  · apply grown_each silent.log _ kept.order
    intro e quiet before
    cases e with
    | requestEnd error => cases quiet
    | pendingRemove => cases quiet
    | spanEnd => cases quiet
    | _ => trivial

theorem silent_underway (silent : Silent r r') (underway : Underway r) : Underway r' := by
  constructor
  · rw [silent_tally silent.log]
    exact underway.1
  · rw [grown_mem silent.log rfl]
    exact underway.2

theorem silent_accounted (silent : Silent r r') (rest : r'.rest = r.rest) (accounted : Accounted source hasResult r) :
    Accounted source hasResult r' := by
  refine ⟨silent_kept silent accounted.kept, ?_⟩
  have ok := accounted.rest
  unfold AccountsAt Underway Unaccounted at ok ⊢
  have refused : .duplicate ∈ r'.log ↔ .duplicate ∈ r.log := grown_mem silent.log rfl
  have rejected : .endSettled false ∈ r'.log ↔ .endSettled false ∈ r.log := grown_mem silent.log rfl
  have same := silent_tally silent.log
  simp only [tally, Prod.mk.injEq] at same
  simp only [rest, silent_tally silent.log, refused, rejected, silent.entered, silent.sampled, same.1, same.2.1,
    same.2.2.1, same.2.2.2]
  exact ok

theorem done_silent : Silent r (r.done source) := by
  unfold done
  split
  · exact silent_note rfl
  · exact silent_trans (silent_note (e := .done) rfl) (silent_kept_log rfl)

theorem send_silent : Silent r (r.send source) := by
  unfold send
  have marked : Silent r { r with sent := true } := silent_kept_log rfl
  have sent : Silent r ({ r with sent := true }.note .sent) := silent_trans marked (silent_note rfl)
  split
  · exact silent_kept_log rfl
  · split
    · exact silent_trans sent (silent_kept_log rfl)
    · exact silent_trans sent done_silent

end Silence

section Phases

theorem callEnd_accounted (kept : Kept source hasResult r)
    (books : tally r.log = (1, 0, (r.entered && hasResult && !source.grpc).toNat, 0))
    (unrefused : source.refusesApart = true → .duplicate ∉ r.log) : Accounted source hasResult r.callEnd := by
  have silent : Silent r r.callEnd :=
    silent_trans (silent_note (e := .endRequest r.failure) rfl) (silent_kept_log rfl)
  refine ⟨silent_kept silent kept, ?_, ?_⟩
  · rw [silent_tally silent.log]
    exact books
  · intro apart
    rw [grown_mem silent.log rfl]
    exact unrefused apart

theorem finishRetire_accounted (kept : Kept source hasResult r) (underway : Underway r) (entered : r.entered = true) :
    Accounted source hasResult (r.finishRetire source) := by
  have silent : Silent r (r.finishRetire source) :=
    silent_trans (silent_note (e := .retired) rfl) (silent_kept_log rfl)
  exact ⟨silent_kept silent kept, silent_underway silent underway, entered⟩

theorem retire_accounted (kept : Kept source hasResult r) (underway : Underway r) (entered : r.entered = true) :
    Accounted source hasResult (r.retire source) := by
  have begun : Silent r { r.note .retireBegun with retiring := true } :=
    silent_trans (silent_note (e := .retireBegun) rfl) (silent_kept_log rfl)
  unfold retire
  split
  · have silent : Silent r { r.note .retireBegun with retiring := true, rest := .retiring } :=
      silent_trans begun (silent_kept_log rfl)
    exact ⟨silent_kept silent kept, silent_underway silent underway, entered⟩
  · exact finishRetire_accounted (silent_kept begun kept) (silent_underway begun underway) entered

theorem leave_accounted (kept : Kept source hasResult r) (underway : Underway r) :
    Accounted source hasResult (r.leave source) := by
  unfold leave
  split
  · rename_i entered
    exact retire_accounted kept underway entered
  · rename_i outside
    apply callEnd_accounted kept
    · rw [Bool.eq_false_iff.mpr outside]
      exact underway.1
    · exact fun _ => underway.2

theorem fail_accounted (kept : Kept source hasResult r) (underway : Underway r) (error : RequestError) :
    Accounted source hasResult (r.fail source error) := by
  have silent : Silent r { r with failure := some error } := silent_kept_log rfl
  exact leave_accounted (silent_kept silent kept) (silent_underway silent underway)

theorem waitFails_accounted (kept : Kept source hasResult r) (underway : Underway r) :
    Accounted source hasResult (r.waitFails source) := by
  have silent : Silent r { r with resultWaitFailed := true } := silent_kept_log rfl
  exact fail_accounted (silent_kept silent kept) (silent_underway silent underway) .cancelled

theorem wait_accounted (kept : Kept source hasResult r) (underway : Underway r) :
    Accounted source hasResult (r.wait source) := by
  unfold wait
  split
  · exact waitFails_accounted kept underway
  · split
    · exact leave_accounted kept underway
    · have silent (race : Option Bool) : Silent r { r with rest := .waiting, race := race } :=
        silent_kept_log rfl
      exact ⟨silent_kept (silent _) kept, silent_underway (silent _) underway⟩

theorem consumed_accounted (kept : Kept source hasResult r) (underway : Underway r) :
    Accounted source hasResult (r.consumed source hasResult) := by
  have noted : Silent r (r.note .consumed) := silent_note rfl
  have done : Silent r ((r.note .consumed).done source) := silent_trans noted done_silent
  have sent : Silent r ((r.note .consumed).send source) := silent_trans noted send_silent
  unfold consumed
  dsimp only
  split <;> split
  · exact wait_accounted (silent_kept noted kept) (silent_underway noted underway)
  · exact wait_accounted (silent_kept done kept) (silent_underway done underway)
  · exact wait_accounted (silent_kept noted kept) (silent_underway noted underway)
  · exact leave_accounted (silent_kept sent kept) (silent_underway sent underway)
  · exact wait_accounted (silent_kept noted kept) (silent_underway noted underway)
  · exact leave_accounted (silent_kept noted kept) (silent_underway noted underway)

theorem note_kept {e : Event} (kept : Kept source hasResult r) (ordering : Accounting e r.log)
    (notAdd : e ≠ .pendingAdd) (notSpan : e ≠ .spanStart) : Kept source hasResult (r.note e) where
  added := by
    rw [note, List.count_cons_of_ne notAdd]
    exact kept.added
  spanned := by
    rw [note, List.count_cons_of_ne notSpan]
    exact kept.spanned
  enters := kept.enters
  order := each_cons ordering kept.order

theorem finish_accounted (kept : Kept source hasResult r) (single : r.log.count .requestStart ≤ 1)
    (removed : r.log.count .pendingRemove = (r.entered && hasResult).toNat) (open_span : r.log.count .spanEnd = 0)
    (exact : r.log.countP Event.isRequestEnd = r.log.count .requestStart ↔ ¬Unaccounted source r) :
    Accounted source hasResult r.finish := by
  unfold finish noteIf
  split
  · rename_i sampled
    have opened : .spanStart ∈ r.log := by
      apply List.count_pos_iff.mp
      rw [kept.spanned, sampled]
      decide
    have ended : Kept source hasResult (r.note .spanEnd) := note_kept kept opened nofun nofun
    refine ⟨{ ended with }, ?_⟩
    simp only [AccountsAt, note, Unaccounted, List.count_cons, List.countP_cons, List.mem_cons]
    simp only [Unaccounted] at exact
    simp [Event.isRequestEnd, single, removed, open_span, exact, sampled]
  · rename_i unsampled
    refine ⟨{ kept with }, single, removed, ?_, exact⟩
    rw [open_span, Bool.eq_false_iff.mpr unsampled]
    rfl

/-- `onRequestEnd`, and the removal of the entry of a gRPC call. -/
theorem close_accounted (kept : Kept source hasResult r)
    (books : tally r.log = (1, 0, (r.entered && hasResult && !source.grpc).toNat, 0))
    (unrefused : source.refusesApart = true → .duplicate ∉ r.log) :
    Accounted source hasResult (r.close source hasResult) := by
  simp only [tally, Prod.mk.injEq] at books
  obtain ⟨starts, ends, removed, spans⟩ := books
  have started : .requestStart ∈ r.log := List.count_pos_iff.mp (by omega)
  have ended : Kept source hasResult (r.note (.requestEnd r.failure)) := note_kept kept started nofun nofun
  unfold close noteIf
  split
  · rename_i inside
    simp only [Bool.and_eq_true] at inside
    obtain ⟨⟨grpc, entered⟩, result⟩ := inside
    have added : .pendingAdd ∈ (r.note (.requestEnd r.failure)).log := by
      apply List.count_pos_iff.mp
      rw [ended.added, note_entered, entered, result]
      decide
    have gone : Kept source hasResult ((r.note (.requestEnd r.failure)).note .pendingRemove) :=
      note_kept ended added nofun nofun
    apply finish_accounted gone
    · simp [note, starts]
    · simp [note, removed, entered, result, grpc]
    · simp [note, spans]
    · have known : source.refusesApart = false := by cases source <;> first | rfl | cases grpc
      simp [note, starts, ends, Event.isRequestEnd, Unaccounted, known, List.countP_cons]
  · rename_i outside
    apply finish_accounted ended
    · simp [note, starts]
    · have same : (r.note (.requestEnd r.failure)).log.count .pendingRemove = r.log.count .pendingRemove := by
        simp [note]
      rw [same, removed, note_entered]
      cases known : source.grpc with
      | false => simp
      | true =>
        rw [known, Bool.true_and] at outside
        rw [Bool.eq_false_iff.mpr outside, Bool.false_and]
    · simp [note, spans]
    · have apart : ¬Unaccounted source (r.note (.requestEnd r.failure)) := by
        rintro ⟨refuses, refused, _⟩
        rcases List.mem_cons.mp refused with same | before
        · cases same
        · exact unrefused refuses before
      exact iff_of_true (by simp [note, starts, ends, Event.isRequestEnd, List.countP_cons]) apart

theorem ends_accounted {succeeds : Bool} (ended : r.ends source hasResult succeeds = some r')
    (accounted : Accounted source hasResult r) : Accounted source hasResult r' := by
  have kept := accounted.kept
  have ok := accounted.rest
  unfold AccountsAt at ok
  have settled : Kept source hasResult (r.note (.endSettled succeeds)) := note_kept kept trivial nofun nofun
  unfold ends at ended
  dsimp only at ended
  split at ended
  · rename_i rest
    rw [rest] at ok
    obtain ⟨books, unentered, apart, refused, unsettled⟩ := ok
    simp only [tally, Prod.mk.injEq] at books
    obtain ⟨starts, ends, removed, spans⟩ := books
    have started : .requestStart ∈ (r.note (.endSettled succeeds)).log :=
      List.mem_cons_of_mem _ (List.count_pos_iff.mp (by omega))
    cases ended
    split
    · rename_i success
      have noted : Kept source hasResult ((r.note (.endSettled succeeds)).note (.requestEnd r.failure)) :=
        note_kept settled started nofun nofun
      apply finish_accounted noted
      · simp [note, starts]
      · simp [note, removed, unentered]
      · simp [note, spans]
      · have accountedFor : ¬Unaccounted source ((r.note (.endSettled succeeds)).note (.requestEnd r.failure)) := by
          rintro ⟨_, _, rejected⟩
          simp [note, unsettled, success] at rejected
        exact iff_of_true (by simp [note, starts, ends, Event.isRequestEnd, List.countP_cons]) accountedFor
    · rename_i failed
      apply finish_accounted settled
      · simp [note, starts]
      · simp [note, removed, unentered]
      · simp [note, spans]
      · have unaccounted : Unaccounted source (r.note (.endSettled succeeds)) := by
          refine ⟨apart, List.mem_cons_of_mem _ refused, ?_⟩
          rw [Bool.eq_false_iff.mpr failed]
          exact List.mem_cons_self
        exact iff_of_false (by simp [note, starts, ends, Event.isRequestEnd]) (not_not_intro unaccounted)
  · rename_i rest
    rw [rest] at ok
    obtain ⟨books, unrefused⟩ := ok
    have same : tally (.endSettled succeeds :: r.log) = tally r.log := by
      simp [tally, Event.isRequestEnd]
    have still : source.refusesApart = true → .duplicate ∉ (r.note (.endSettled succeeds)).log := by
      intro refuses mem
      rcases List.mem_cons.mp mem with same | before
      · cases same
      · exact unrefused refuses before
    split at ended
    · cases ended
      split <;> exact ⟨{ settled with }, same.trans books, still⟩
    · cases ended
      apply close_accounted
      · split
        · exact { settled with }
        · exact settled
      · split <;> exact same.trans books
      · split <;> exact still
  · cases ended

theorem started_underway (kept : Kept source hasResult r) (books : tally r.log = (0, 0, 0, 0))
    (unrefused : .duplicate ∉ r.log) :
    Kept source hasResult (r.note .requestStart) ∧ Underway (r.note .requestStart) := by
  refine ⟨note_kept kept trivial nofun nofun, ?_, ?_⟩
  · simp only [tally, Prod.mk.injEq] at books
    simp [note, tally, Event.isRequestEnd, books]
  · simp [note, unrefused]

theorem firstMessage_accounted (kept : Kept source hasResult r) (underway : Underway r) :
    Accounted source hasResult (r.firstMessage source) := by
  unfold firstMessage
  split
  · have silent : Silent r { r with rest := .receiving } := silent_kept_log rfl
    exact ⟨silent_kept silent kept, silent_underway silent underway⟩
  · have silent : Silent r { r with rest := .consuming, handedOut := true } := silent_kept_log rfl
    exact ⟨silent_kept silent kept, silent_underway silent underway⟩

theorem entered_accounted (kept : Kept source hasResult r) (books : tally r.log = (0, 0, 0, 0))
    (unrefused : .duplicate ∉ r.log) (unentered : r.entered = false) (enters : source.enters hasResult = true) :
    Accounted source hasResult
      (({ r.note .requestStart with entered := true }.noteIf hasResult .pendingAdd).firstMessage source) := by
  obtain ⟨started, underway⟩ := started_underway kept books unrefused
  have none : r.log.count .pendingAdd = 0 := by
    rw [kept.added, unentered]
    rfl
  have order : Each Accounting (.pendingAdd :: .requestStart :: r.log) := each_cons trivial started.order
  have still : Underway ((r.note .requestStart).note .pendingAdd) := by
    refine ⟨?_, ?_⟩
    · have same : tally ((r.note .requestStart).note .pendingAdd).log = tally (r.note .requestStart).log := by
        simp [note, tally, Event.isRequestEnd]
      exact same.trans underway.1
    · simp [note, unrefused]
  cases hasResult with
  | true =>
    apply firstMessage_accounted
    · exact { started with added := by simp [noteIf, note, none], enters := fun _ => enters, order := order }
    · exact still
  | false =>
    apply firstMessage_accounted
    · exact { started with added := by simp [noteIf, note, none], enters := fun _ => enters }
    · exact underway

theorem refuse_accounted (kept : Kept source hasResult r) (books : tally r.log = (0, 0, 0, 0))
    (unrefused : .duplicate ∉ r.log) (unentered : r.entered = false) (unsettled : .endSettled false ∉ r.log) :
    Accounted source hasResult ((r.note .requestStart).refuse source) := by
  obtain ⟨started, underway⟩ := started_underway kept books unrefused
  have refused : Kept source hasResult ((r.note .requestStart).note .duplicate) :=
    note_kept started trivial nofun nofun
  have ended : Kept source hasResult (((r.note .requestStart).note .duplicate).note (.endRequest (some .duplicate))) :=
    note_kept refused trivial nofun nofun
  have same : tally (((r.note .requestStart).note .duplicate).note (.endRequest (some .duplicate))).log =
      (1, 0, 0, 0) := by
    rw [← underway.1]
    simp [note, tally, Event.isRequestEnd]
  have here : .duplicate ∈ (((r.note .requestStart).note .duplicate).note (.endRequest (some .duplicate))).log := by
    simp [note]
  have open_end : .endSettled false ∉
      (((r.note .requestStart).note .duplicate).note (.endRequest (some .duplicate))).log := by
    simp [note, unsettled]
  cases source with
  | kafka | custom => exact ⟨{ ended with }, same, unentered, rfl, here, open_end⟩
  | _ =>
    refine ⟨{ ended with }, ?_, nofun⟩
    rw [refuse_entered, note_entered, unentered]
    exact same

theorem goesOn_accounted {completed : Bool} (rest : r.rest = .retired completed)
    (accounted : Accounted source hasResult r) :
    (source.grpc = false → Accounted source hasResult ((r.excuse completed).note .pendingRemove).callEnd) ∧
      (source.grpc = true → Accounted source hasResult (r.excuse completed).callEnd) := by
  have ok := accounted.rest
  unfold AccountsAt at ok
  rw [rest] at ok
  obtain ⟨underway, entered⟩ := ok
  have excused : Silent r (r.excuse completed) := by
    unfold excuse
    split <;> exact silent_kept_log rfl
  have kept := silent_kept excused accounted.kept
  have still := silent_underway excused underway
  have inside : (r.excuse completed).entered = true := excused.entered.trans entered
  constructor
  · intro grpc
    have result : hasResult = true := by
      have enters := accounted.kept.enters entered
      rw [Source.enters, grpc, Bool.or_false] at enters
      exact enters
    have added : .pendingAdd ∈ (r.excuse completed).log := by
      apply List.count_pos_iff.mp
      rw [kept.added, inside, result]
      decide
    have removed : Kept source hasResult ((r.excuse completed).note .pendingRemove) :=
      note_kept kept added nofun nofun
    have books := still.1
    simp only [tally, Prod.mk.injEq] at books
    apply callEnd_accounted removed
    · rw [note_entered, inside, result, grpc]
      simp [note, tally, Event.isRequestEnd, books]
    · intro _ mem
      rcases List.mem_cons.mp mem with same | before
      · cases same
      · exact still.2 before
  · intro grpc
    apply callEnd_accounted kept
    · rw [inside, grpc, Bool.not_true, Bool.and_false]
      exact still.1
    · exact fun _ => still.2

end Phases

theorem fresh_accounted (streamId : String) (cancelled sampled : Bool) :
    Accounted source hasResult (fresh streamId cancelled sampled) := by
  have order : Each Accounting (fresh streamId cancelled sampled).log := by
    have bare := each_nil Accounting
    cases cancelled <;> cases sampled
    · exact bare
    · exact each_cons trivial bare
    · exact each_cons trivial bare
    · exact each_cons trivial (each_cons trivial bare)
  cases cancelled <;> cases sampled
  all_goals
    constructor
    · constructor
      · simp [fresh, noteIf, note]
      · simp [fresh, noteIf, note]
      · nofun
      · exact order
    · simp [AccountsAt, fresh, noteIf, note, tally, Event.isRequestEnd]

theorem moves_accounted (moves : Moves source hasResult r r') (accounted : Accounted source hasResult r) :
    Accounted source hasResult r' := by
  have kept := accounted.kept
  have ok := accounted.rest
  unfold AccountsAt at ok
  cases moves with
  | beginFails rest =>
    rw [rest] at ok
    obtain ⟨books, unrefused, unsettled, unentered⟩ := ok
    simp only [tally, Prod.mk.injEq] at books
    obtain ⟨starts, ends, removed, spans⟩ := books
    have noted : Kept source hasResult (r.note .beginFailed) := note_kept kept trivial nofun nofun
    have apart : ¬Unaccounted source (r.note .beginFailed) := by
      rintro ⟨_, refused, _⟩
      simp [note, unrefused] at refused
    apply finish_accounted noted
    · simp [note, starts]
    · simp [note, removed, unentered]
    · simp [note, spans]
    · exact iff_of_true (by simp [note, starts, ends, Event.isRequestEnd]) apart
  | refused rest enters =>
    rw [rest] at ok
    exact refuse_accounted kept ok.1 ok.2.1 ok.2.2.2 ok.2.2.1
  | entered rest enters =>
    rw [rest] at ok
    exact entered_accounted kept ok.1 ok.2.1 ok.2.2.2 enters
  | started rest enters =>
    rw [rest] at ok
    obtain ⟨begun, underway⟩ := started_underway kept ok.1 ok.2.1
    exact firstMessage_accounted begun underway
  | message rest =>
    rw [rest] at ok
    have silent : Silent r { r with rest := .consuming, handedOut := true } := silent_kept_log rfl
    exact ⟨silent_kept silent kept, silent_underway silent ok⟩
  | noMessage rest =>
    rw [rest] at ok
    have silent : Silent r { r with rest := .atEof } := silent_kept_log rfl
    exact ⟨silent_kept silent kept, silent_underway silent ok⟩
  | fails rest => rcases rest with rest | rest | rest <;> rw [rest] at ok <;> exact fail_accounted kept ok .handler
  | next rest streams =>
    rw [rest] at ok
    have silent : Silent r { r with rest := .receiving } := silent_kept_log rfl
    exact ⟨silent_kept silent kept, silent_underway silent ok⟩
  | toEof rest grpc =>
    rw [rest] at ok
    have silent : Silent r { r with rest := .atEof } := silent_kept_log rfl
    exact ⟨silent_kept silent kept, silent_underway silent ok⟩
  | consumed rest => rcases rest with rest | rest <;> rw [rest] at ok <;> exact consumed_accounted kept ok
  | hearsDone rest completed race =>
    have silent : Silent r { r with race := some true } := silent_kept_log rfl
    exact silent_accounted silent rfl accounted
  | waited rest race =>
    rw [rest] at ok
    exact leave_accounted kept ok
  | waitFails rest race =>
    rw [rest] at ok
    exact waitFails_accounted kept ok
  | retires rest resolved =>
    rw [rest] at ok
    exact finishRetire_accounted kept ok.1 ok.2
  | goesOn rest grpc => exact (goesOn_accounted rest accounted).1 grpc
  | goesOnEntered rest grpc => exact (goesOn_accounted rest accounted).2 grpc
  | ends succeeds ended => exact ends_accounted ended accounted
  | closes rest =>
    rw [rest] at ok
    exact close_accounted kept ok.1 ok.2
  | delivers messageId entered =>
    unfold deliver
    split
    · exact accounted
    · split
      · exact accounted
      · apply silent_accounted _ _ accounted
        · exact silent_trans (silent_note (e := .callbackStarted r.nextCallback) rfl) (silent_kept_log rfl)
        · rfl
  | callbackEnds c remove ended =>
    unfold callbackEnds at ended
    split at ended
    · cases ended
      apply silent_accounted _ _ accounted
      · exact silent_trans (silent_note (e := .callbackEnded c.number) rfl) (silent_kept_log rfl)
      · rfl
    · cases ended
  | setsCallback messageId callback =>
    unfold setResultCallback
    split
    · exact accounted
    · apply silent_accounted _ _ accounted
      · exact silent_kept_log rfl
      · rfl
  | done => exact silent_accounted done_silent (by unfold done; split <;> rfl) accounted
  | sends =>
    apply silent_accounted send_silent _ accounted
    unfold send done
    split
    · rfl
    · split <;> rfl
  | aborts cancelled =>
    have silent : Silent r r.abort :=
      silent_trans (silent_note (e := .aborted) rfl) (silent_kept_log rfl)
    exact silent_accounted silent rfl accounted

theorem ended_balanced (accounted : Accounted source hasResult r) (ended : r.rest = .ended) :
    Balanced r.log ↔ ¬Unaccounted source r := by
  have kept := accounted.kept
  have ok := accounted.rest
  unfold AccountsAt at ok
  rw [ended] at ok
  obtain ⟨single, removed, spans, exact⟩ := ok
  have added : r.log.count .pendingAdd ≤ 1 := by
    rw [kept.added]
    exact Bool.toNat_le _
  have spanned : r.log.count .spanStart ≤ 1 := by
    rw [kept.spanned]
    exact Bool.toNat_le _
  rw [balanced_iff kept.order single added spanned, exact, removed, kept.added, spans, kept.spanned]
  simp

end Request

end Sources
