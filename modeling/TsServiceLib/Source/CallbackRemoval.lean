import TsServiceLib.Source.ResultCallbacks
import Mathlib.Data.List.Nodup

/-!
The callback that a result has under a message id is the newest that was set there,
until a call of it returns true. By this reading of the log a call that returns true
removes its callback when that is still the one registered, and is reported as a
duplicate otherwise, and what was registered later is not touched.
-/
namespace Sources.ResultCallbacks
open Transitions EventLogs Function

variable {Id F : Type} {log : List (Entry Id F)} {messageId : Id} {callback : F}

/-- Entries other than registrations, fetched callbacks and what they returned. -/
def Entry.aside : Entry Id F → Bool
  | .registered _ _ => false
  | .fetched _ => false
  | .completed _ _ _ => false
  | _ => true

theorem newest_cons {e : Entry Id F} (other : ∀ id f, e ≠ .registered id f) :
    Newest (e :: log) messageId callback ↔ Newest log messageId callback := by
  have kept : .registered messageId callback ∈ e :: log ↔ .registered messageId callback ∈ log := by
    have apart := other messageId callback
    grind
  have follows (g : F) : Follows (.registered messageId g) (.registered messageId callback) (e :: log) ↔
      Follows (.registered messageId g) (.registered messageId callback) log := by
    rw [follows_cons]
    simp [other messageId g]
  unfold Newest
  rw [kept]
  simp only [follows]

theorem standing_cons {e : Entry Id F} (other : ∀ id f, e ≠ .registered id f)
    (open_still : ∀ c removed, e ≠ .completed c true removed) :
    Standing (e :: log) messageId callback ↔ Standing log messageId callback := by
  have kept : Unfinished (e :: log) messageId callback ↔ Unfinished log messageId callback := by
    constructor
    · intro unfinished number removed mem
      exact unfinished number removed (List.mem_cons_of_mem e mem)
    · intro unfinished number removed mem
      rcases List.mem_cons.mp mem with same | old
      · exact open_still _ removed same.symm
      · exact unfinished number removed old
  unfold Standing
  rw [newest_cons other, kept]

theorem standing_completed {c : Call Id F} {removed : Bool} :
    Standing (.completed c true removed :: log) messageId callback ↔
      Standing log messageId callback ∧ ¬(c.messageId = messageId ∧ c.callback = callback) := by
  unfold Standing
  rw [newest_cons (by simp), and_assoc]
  apply and_congr_right
  intro _
  constructor
  · intro unfinished
    constructor
    · intro number removed mem
      exact unfinished number removed (List.mem_cons_of_mem _ mem)
    · intro same
      obtain ⟨sameId, sameCallback⟩ := same
      subst sameId
      subst sameCallback
      exact unfinished c.number removed List.mem_cons_self
  · intro both number removed mem
    obtain ⟨unfinished, other⟩ := both
    rcases List.mem_cons.mp mem with same | old
    · cases same
      exact other ⟨rfl, rfl⟩
    · exact unfinished number removed old

/-- A callback that is new under its message id takes the place of the one there. -/
theorem standing_registered {id : Id} {f : F} (fresh : .registered id f ∉ log) (unfinished : Unfinished log id f) :
    Standing (.registered id f :: log) messageId callback ↔
      (messageId = id ∧ callback = f) ∨ (messageId ≠ id ∧ Standing log messageId callback) := by
  have still (messageId : Id) (callback : F) : Unfinished (.registered id f :: log) messageId callback ↔
      Unfinished log messageId callback := by
    simp [Unfinished]
  by_cases sameId : messageId = id
  · subst sameId
    simp only [true_and, ne_eq, not_true_eq_false, false_and, or_false]
    constructor
    · intro standing
      obtain ⟨⟨mem, newest⟩, -⟩ := standing
      rcases List.mem_cons.mp mem with same | old
      · cases same
        rfl
      · exact absurd (follows_cons.mpr (.inl ⟨rfl, old⟩)) (newest f)
    · intro same
      subst same
      refine ⟨⟨List.mem_cons_self, ?_⟩, (still messageId callback).mpr unfinished⟩
      intro other follows
      rcases follows_cons.mp follows with now | earlier
      · exact fresh now.2
      · exact fresh (follows_mem earlier).2
  · simp only [sameId, false_and, false_or, ne_eq, not_false_eq_true, true_and]
    have apart (g : F) : Entry.registered id f ≠ .registered messageId g := by
      intro same
      injection same with same
      exact sameId same.symm
    have mem : .registered messageId callback ∈ Entry.registered id f :: log ↔
        .registered messageId callback ∈ log := by
      have other := apart callback
      grind
    have follows (g : F) : Follows (.registered messageId g) (.registered messageId callback) (.registered id f :: log) ↔
        Follows (.registered messageId g) (.registered messageId callback) log := by
      rw [follows_cons]
      simp [apart g]
    unfold Standing Newest
    simp only [mem, follows, still]

/-- What an entry says when it is made: a new call has the callback registered, a call
    completes once and removes its callback when that is the one registered, and a
    duplicate is a call that has removed nothing. -/
def Lawful (e : Entry Id F) (before : List (Entry Id F)) : Prop :=
  (∀ c, e = .fetched c → Standing before c.messageId c.callback ∧ .fetched c ∉ before) ∧
    (∀ c returned removed, e = .completed c returned removed →
      .fetched c ∈ before ∧ (∀ returned' removed', .completed c returned' removed' ∉ before) ∧
        (removed = true ↔ returned = true ∧ Standing before c.messageId c.callback)) ∧
    ∀ c, e = .duplicateMessageId c → .completed c true false ∈ before ∧ .duplicateMessageId c ∉ before

structure Facts (callbacks : Id → Option F) (running : List (Call Id F)) (calls : Nat) (log : List (Entry Id F)) :
    Prop where
  numbered : ∀ c, .fetched c ∈ log → c.number < calls
  active : ∀ c ∈ running, .fetched c ∈ log ∧ ∀ returned removed, .completed c returned removed ∉ log
  single : running.Nodup
  known : ∀ c, .fetched c ∈ log → .registered c.messageId c.callback ∈ log
  settled : ∀ c returned removed, .completed c returned removed ∈ log → .fetched c ∈ log
  held : ∀ id f, callbacks id = some f ↔ Standing log id f
  order : Each Lawful log

/-- The calls reported as duplicates are those that returned true and removed nothing. -/
def Reported (log : List (Entry Id F)) : Prop :=
  ∀ c, .duplicateMessageId c ∈ log ↔ .completed c true false ∈ log

theorem reported_cons {e : Entry Id F} (reported : Reported log) (unreported : ∀ c, e ≠ .duplicateMessageId c)
    (removes : ∀ c, e ≠ .completed c true false) : Reported (e :: log) := by
  intro c
  simp only [List.mem_cons, (unreported c).symm, (removes c).symm, false_or]
  exact reported c

theorem reported_duplicate {c : Call Id F} (reported : Reported log) :
    Reported (.duplicateMessageId c :: .completed c true false :: log) := by
  intro d
  have old := reported d
  simp only [List.mem_cons, Entry.duplicateMessageId.injEq, Entry.completed.injEq, reduceCtorEq, and_true, false_or]
  rw [old]

section Moves
variable {callbacks : Id → Option F} {running : List (Call Id F)} {calls : Nat} {c : Call Id F}

theorem lawful_aside {e : Entry Id F} (aside : e.aside = true) (unreported : ∀ c, e ≠ .duplicateMessageId c) :
    Lawful e log := by
  refine ⟨?_, ?_, ?_⟩
  · intro c same
    simp [same, Entry.aside] at aside
  · intro c returned removed same
    simp [same, Entry.aside] at aside
  · intro c same
    exact absurd same (unreported c)

theorem facts_aside {e : Entry Id F} (facts : Facts callbacks running calls log) (aside : e.aside = true)
    (lawful : Lawful e log) : Facts callbacks running calls (e :: log) := by
  have unregistered (id : Id) (f : F) : e ≠ .registered id f := by
    intro same
    simp [same, Entry.aside] at aside
  have unfetched (c : Call Id F) : e ≠ .fetched c := by
    intro same
    simp [same, Entry.aside] at aside
  have incomplete (c : Call Id F) (returned removed : Bool) : e ≠ .completed c returned removed := by
    intro same
    simp [same, Entry.aside] at aside
  constructor
  · intro c mem
    exact facts.numbered c (List.mem_of_ne_of_mem (unfetched c).symm mem)
  · intro c mem
    obtain ⟨fetched, under_way⟩ := facts.active c mem
    refine ⟨List.mem_cons_of_mem e fetched, ?_⟩
    intro returned removed done
    exact under_way returned removed (List.mem_of_ne_of_mem (incomplete c returned removed).symm done)
  · exact facts.single
  · intro c mem
    exact List.mem_cons_of_mem e (facts.known c (List.mem_of_ne_of_mem (unfetched c).symm mem))
  · intro c returned removed mem
    have old := List.mem_of_ne_of_mem (incomplete c returned removed).symm mem
    exact List.mem_cons_of_mem e (facts.settled c returned removed old)
  · intro id f
    rw [standing_cons unregistered (fun c removed => incomplete c true removed)]
    exact facts.held id f
  · exact each_cons lawful facts.order

theorem facts_registered [DecidableEq Id] {id : Id} {f : F} (facts : Facts callbacks running calls log)
    (fresh : .registered id f ∉ log) :
    Facts (update callbacks id (some f)) running calls (.registered id f :: log) := by
  have unfinished : Unfinished log id f := by
    intro number removed mem
    exact fresh (facts.known _ (facts.settled _ _ _ mem))
  constructor
  · intro c mem
    exact facts.numbered c (by simpa using mem)
  · intro c mem
    have old := facts.active c mem
    simpa using old
  · exact facts.single
  · intro c mem
    exact List.mem_cons_of_mem _ (facts.known c (by simpa using mem))
  · intro c returned removed mem
    exact List.mem_cons_of_mem _ (facts.settled c returned removed (by simpa using mem))
  · intro messageId callback
    rw [standing_registered fresh unfinished]
    by_cases same : messageId = id
    · subst same
      simp [eq_comm]
    · simp [same, facts.held]
  · apply each_cons _ facts.order
    simp [Lawful]

theorem facts_fetched (facts : Facts callbacks running calls log) (fetches : callbacks c.messageId = some c.callback)
    (next : c.number = calls) : Facts callbacks (c :: running) (calls + 1) (.fetched c :: log) := by
  have unused : .fetched c ∉ log := by
    intro mem
    have less := facts.numbered c mem
    omega
  have standing := (facts.held _ _).mp fetches
  constructor
  · intro d mem
    rcases List.mem_cons.mp mem with same | old
    · cases same
      omega
    · have less := facts.numbered d old
      omega
  · intro d mem
    rcases List.mem_cons.mp mem with same | old
    · subst same
      refine ⟨List.mem_cons_self, ?_⟩
      intro returned removed done
      exact unused (facts.settled d returned removed (by simpa using done))
    · have kept := facts.active d old
      refine ⟨List.mem_cons_of_mem _ kept.1, ?_⟩
      intro returned removed done
      exact kept.2 returned removed (by simpa using done)
  · apply List.nodup_cons.mpr
    refine ⟨?_, facts.single⟩
    intro mem
    exact unused (facts.active c mem).1
  · intro d mem
    rcases List.mem_cons.mp mem with same | old
    · cases same
      exact List.mem_cons_of_mem _ standing.1.1
    · exact List.mem_cons_of_mem _ (facts.known d old)
  · intro d returned removed mem
    exact List.mem_cons_of_mem _ (facts.settled d returned removed (by simpa using mem))
  · intro id f
    rw [standing_cons (by simp) (by simp)]
    exact facts.held id f
  · apply each_cons _ facts.order
    refine ⟨?_, by simp, by simp⟩
    intro d same
    cases same
    exact ⟨standing, unused⟩

theorem facts_completed [DecidableEq Id] [DecidableEq F] {returned removed : Bool} {callbacks' : Id → Option F}
    (facts : Facts callbacks running calls log) (awaited : c ∈ running)
    (removes : removed = true ↔ returned = true ∧ Standing log c.messageId c.callback)
    (held : ∀ id f, callbacks' id = some f ↔ Standing (.completed c returned removed :: log) id f) :
    Facts callbacks' (running.erase c) calls (.completed c returned removed :: log) := by
  obtain ⟨fetched, under_way⟩ := facts.active c awaited
  constructor
  · intro d mem
    exact facts.numbered d (by simpa using mem)
  · intro d mem
    obtain ⟨other, old⟩ := (List.Nodup.mem_erase_iff facts.single).mp mem
    obtain ⟨kept, open_still⟩ := facts.active d old
    refine ⟨List.mem_cons_of_mem _ kept, ?_⟩
    intro returned' removed' done
    rcases List.mem_cons.mp done with same | earlier
    · cases same
      exact other rfl
    · exact open_still returned' removed' earlier
  · exact facts.single.erase c
  · intro d mem
    exact List.mem_cons_of_mem _ (facts.known d (by simpa using mem))
  · intro d returned' removed' mem
    rcases List.mem_cons.mp mem with same | old
    · cases same
      exact List.mem_cons_of_mem _ fetched
    · exact List.mem_cons_of_mem _ (facts.settled d returned' removed' old)
  · exact held
  · apply each_cons _ facts.order
    refine ⟨by simp, ?_, by simp⟩
    intro d returned' removed' same
    cases same
    exact ⟨fetched, under_way, removes⟩

theorem facts_failed [DecidableEq Id] [DecidableEq F] (facts : Facts callbacks running calls log) :
    Facts callbacks (running.erase c) calls (.failed c :: log) := by
  have noted := facts_aside (e := .failed c) facts rfl (lawful_aside rfl (by simp))
  constructor
  · exact noted.numbered
  · intro d mem
    exact noted.active d (List.mem_of_mem_erase mem)
  · exact noted.single.erase c
  · exact noted.known
  · exact noted.settled
  · exact noted.held
  · exact noted.order

end Moves

section Runs
variable {r t : Result Id F} {c : Call Id F} {kind : Kind}

structure Sound (r : Result Id F) : Prop where
  facts : Facts r.callbacks r.running r.calls r.log
  reported : Reported r.log

theorem initial_sound : Sound ({} : Result Id F) := by
  constructor
  · constructor <;> simp [Standing, Newest, each_nil]
  · simp [Reported]

theorem note_sound {e : Entry Id F} (sound : Sound r) (aside : e.aside = true)
    (unreported : ∀ c, e ≠ .duplicateMessageId c) : Sound (r.note e) := by
  constructor
  · exact facts_aside sound.facts aside (lawful_aside aside unreported)
  · apply reported_cons sound.reported unreported
    intro c same
    simp [same, Entry.aside] at aside

theorem addEvent_sound (sound : Sound r) (name : String) (messageId : Option Id) :
    Sound (r.addEvent kind name messageId) := by
  cases kind with
  | kafka => exact note_sound sound rfl (by simp)
  | custom => exact sound

theorem endCallback_sound (sound : Sound r) : Sound r.endCallback := ⟨sound.facts, sound.reported⟩

theorem consumeResult_sound [DecidableEq Id] (sound : Sound r) (messageId : Option Id) : Sound (r.consumeResult kind messageId) := by
  unfold Result.consumeResult Result.beginCallback
  split
  · exact addEvent_sound (note_sound sound rfl (by simp)) _ _
  · rename_i begun begins
    split at begins
    · cases begins
    · injection begins with shape
      subst shape
      have begun : Sound { r with activeCallbacks := r.activeCallbacks + 1 } := ⟨sound.facts, sound.reported⟩
      cases messageId with
      | none => exact endCallback_sound begun
      | some id =>
        simp only
        split
        · exact endCallback_sound (addEvent_sound (note_sound begun rfl (by simp)) _ _)
        · rename_i f fetches
          constructor
          · exact facts_fetched (c := ⟨r.calls, id, f⟩) sound.facts fetches rfl
          · exact reported_cons sound.reported (by simp) (by simp)

theorem setResultCallback_sound [DecidableEq Id] (sound : Sound r) (fresh : .registered messageId callback ∉ r.log) :
    Sound (r.setResultCallback messageId callback) := by
  constructor
  · exact facts_registered sound.facts fresh
  · exact reported_cons sound.reported (by simp) (by simp)

variable [DecidableEq Id] [DecidableEq F]

theorem finishes_sound (sound : Sound r) (awaited : c ∈ r.running) :
    Sound (Result.finishes kind { r with running := r.running.erase c } c) := by
  obtain ⟨facts, reported⟩ := sound
  unfold Result.finishes Result.remove
  by_cases registered : r.callbacks c.messageId = some c.callback
  · have standing := (facts.held _ _).mp registered
    rw [if_neg (by simpa using registered)]
    constructor
    · apply facts_completed facts awaited
      · simp [standing]
      · intro id f
        rw [standing_completed, ← facts.held]
        by_cases same : id = c.messageId
        · subst same
          simp [Result.note, registered]
        · have apart : c.messageId ≠ id := fun equal => same equal.symm
          simp [Result.note, update_of_ne same, apart]
    · exact reported_cons reported (by simp) (by simp)
  · have replaced : ¬Standing r.log c.messageId c.callback := by
      rw [← facts.held]
      exact registered
    rw [if_pos registered]
    apply addEvent_sound
    have completed : Facts r.callbacks (r.running.erase c) r.calls (.completed c true false :: r.log) := by
      apply facts_completed facts awaited
      · simp [replaced]
      · intro id f
        rw [standing_completed, ← facts.held]
        constructor
        · intro held
          refine ⟨held, ?_⟩
          intro same
          rw [← same.1, ← same.2] at held
          exact registered held
        · exact And.left
    constructor
    · apply facts_aside completed rfl
      refine ⟨by simp, by simp, ?_⟩
      intro d same
      cases same
      refine ⟨List.mem_cons_self, ?_⟩
      intro mem
      have earlier := (reported c).mp (by simpa using mem)
      exact (facts.active c awaited).2 true false earlier
    · exact reported_duplicate reported

theorem settles_sound {returned : Option Bool} (sound : Sound r) (settled : r.settles kind c returned = some t) :
    Sound t := by
  simp only [Result.settles, Option.ite_none_right_eq_some] at settled
  obtain ⟨awaited, settled⟩ := settled
  cases returned with
  | none =>
    simp only [Option.some.injEq] at settled
    subst settled
    apply endCallback_sound
    constructor
    · exact facts_failed sound.facts
    · exact reported_cons sound.reported (by simp) (by simp)
  | some returned =>
    cases returned with
    | true =>
      simp only [Option.some.injEq] at settled
      subst settled
      exact endCallback_sound (addEvent_sound (finishes_sound sound awaited) _ _)
    | false =>
      simp only [Option.some.injEq] at settled
      subst settled
      apply endCallback_sound
      apply addEvent_sound
      constructor
      · apply facts_completed sound.facts awaited
        · simp
        · intro id f
          rw [standing_cons (by simp) (by simp)]
          exact sound.facts.held id f
      · exact reported_cons sound.reported (by simp) (by simp)

theorem reached_sound (reached : Reached kind r) : Sound r := by
  apply steps_invariant Sound _ reached initial_sound
  intro r a t sound distinct next
  cases a with
  | setResultCallback messageId callback =>
    simp only [step, Option.some.injEq] at next
    subst next
    exact setResultCallback_sound sound distinct
  | consumeResult messageId =>
    simp only [step, Option.some.injEq] at next
    subst next
    exact consumeResult_sound sound messageId
  | settles c returned => exact settles_sound sound next
  | retire =>
    simp only [step, Option.some.injEq] at next
    subst next
    exact ⟨sound.facts, sound.reported⟩

/-- The end of a call takes nothing from the result but the callback that it ran. -/
theorem settles_keeps {returned : Option Bool} {id : Id} {f : F} (settled : r.settles kind c returned = some t)
    (held : r.callbacks id = some f) (other : (id, f) ≠ (c.messageId, c.callback)) : t.callbacks id = some f := by
  have event (r : Result Id F) (name : String) (messageId : Option Id) :
      (r.addEvent kind name messageId).callbacks = r.callbacks := by
    cases kind <;> rfl
  simp only [Result.settles, Option.ite_none_right_eq_some] at settled
  obtain ⟨-, settled⟩ := settled
  cases returned with
  | none =>
    simp only [Option.some.injEq] at settled
    subst settled
    exact held
  | some returned =>
    cases returned with
    | false =>
      simp only [Option.some.injEq] at settled
      subst settled
      simp only [Result.endCallback, event]
      exact held
    | true =>
      simp only [Option.some.injEq] at settled
      subst settled
      simp only [Result.endCallback, event, Result.finishes, Result.remove]
      by_cases registered : r.callbacks c.messageId = some c.callback
      · have apart : id ≠ c.messageId := by
          intro same
          rw [same, registered] at held
          injection held with held
          exact other (by rw [same, held])
        rw [if_neg (by simpa using registered)]
        simp only [Result.note, update_of_ne apart]
        exact held
      · rw [if_pos registered]
        simp only [event]
        exact held

theorem reported_once (order : Each Lawful r.log) (c : Call Id F) : r.log.count (.duplicateMessageId c) ≤ 1 := by
  have once : Each (fun e before => (e == .duplicateMessageId c) = true →
      ∀ e' ∈ before, (e' == .duplicateMessageId c) = false) r.log := by
    refine each_mono (Q := Lawful) ?_ order
    intro e before lawful same e' mem
    have first := (lawful.2.2 c (by simpa using same)).2
    simp only [beq_eq_false_iff_ne]
    intro again
    rw [again] at mem
    exact first mem
  exact each_once once

/- Whatever is set and fetched in between: the callback under a message id is the newest
   set there, until a call of it has returned true. The first call of it to return true
   removes it if it is still the newest, every other one that returns true removes
   nothing and is reported once as a duplicate, and a registration that is not the call's
   own stays. -/
theorem removal_respects_identity (reached : Reached kind r) :
    (∀ id f, r.callbacks id = some f ↔ Standing r.log id f) ∧
    Each Lawful r.log ∧
    (∀ c, .duplicateMessageId c ∈ r.log ↔ .completed c true false ∈ r.log) ∧
    (∀ c, r.log.count (.duplicateMessageId c) ≤ 1) ∧
    (∀ c returned t, step kind r (.settles c returned) = some t → ∀ id f, r.callbacks id = some f →
      (id, f) ≠ (c.messageId, c.callback) → t.callbacks id = some f) := by
  obtain ⟨facts, reported⟩ := reached_sound reached
  refine ⟨facts.held, facts.order, reported, reported_once facts.order, ?_⟩
  intro c returned t settled id f held other
  exact settles_keeps settled held other

/-- A callback is replaced while two calls of the older one are running; the first of
    these to return true is reported, and the newer callback stays. -/
theorem removal_respects_identity_replaced : ∃ r : Result Nat Nat, Reached .kafka r ∧
    r.callbacks 7 = some 2 ∧ r.log.count (.duplicateMessageId ⟨1, 7, 1⟩) ≤ 1 ∧
    .duplicateMessageId ⟨1, 7, 1⟩ ∈ r.log := by
  have evaluated : ((execWhere (step .kafka) (fun r a => decide (Distinct r a)) ({} : Result Nat Nat)
      [.setResultCallback 7 1, .consumeResult (some 7), .consumeResult (some 7), .setResultCallback 7 2,
        .settles ⟨1, 7, 1⟩ (some true)]).any fun r =>
        r.callbacks 7 = some 2 ∧ .completed ⟨1, 7, 1⟩ true false ∈ r.log) = true := by
    decide +kernel
  simp only [Option.any_eq_true, decide_eq_true_eq] at evaluated
  obtain ⟨r, run, held, completed⟩ := evaluated
  have reached : Reached .kafka r := execWhere_steps (fun _ _ passed => of_decide_eq_true passed) run
  obtain ⟨-, -, reported, once, -⟩ := removal_respects_identity reached
  exact ⟨r, reached, held, once _, (reported _).mpr completed⟩

end Runs

end Sources.ResultCallbacks
