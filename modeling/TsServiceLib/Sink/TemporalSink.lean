import TsServiceLib.Source.Accounting

/-!
A request of the Temporal sink, which submits its message to an endpoint and
passes the result on. The sink keeps the accounts that the sources keep, and
has their one gap: an `endRequest` that rejects leaves `finally` before the
request and its span are ended.
-/
namespace Sinks
open Transitions EventLogs Sources

inductive SinkCall where
  | beginRequest | getMessageId | serialize | submitEndpoint | deserialize | consumeResult | endRequest
  deriving DecidableEq

namespace Temporal

section Model
variable (sampled withResult : Bool) (outcome : SinkCall → Option RequestError)

/-- The calls between `beginRequest` and `finally`. -/
def submission : List SinkCall :=
  [.getMessageId, .serialize, .submitEndpoint] ++ if withResult then [.deserialize, .consumeResult] else []

/-- The error of the first call that fails; those after it are not made. -/
def firstFailure : List SinkCall → Option RequestError
  | [] => none
  | call :: rest =>
    match outcome call with
    | some error => some error
    | none => firstFailure rest

/-- `onRequestEnd` and the end of the span. -/
def close (failure : Option RequestError) (log : List Event) : List Event × Option RequestError :=
  ((if sampled then [.spanEnd] else []) ++ .requestEnd failure :: log, failure)

/-- The log of a request, the newest event first, and what its promise rejects
    with. `outcome` is the error a call fails with, if it does. -/
def consumeTracked : List Event × Option RequestError :=
  let started := .requestStart :: if sampled then [.spanStart] else []
  let failure := firstFailure outcome (.beginRequest :: submission withResult)
  match outcome .beginRequest with
  | some _ => close sampled failure started
  | none =>
    match outcome .endRequest with
    | some error => (.endSettled false :: .endRequest failure :: started, some error)
    | none => close sampled failure (.endSettled true :: .endRequest failure :: started)

end Model

variable {sampled withResult : Bool} {outcome : SinkCall → Option RequestError}

theorem consumeTracked_balanced : Balanced (consumeTracked sampled withResult outcome).1 ↔
    ¬(outcome .beginRequest = none ∧ outcome .endRequest ≠ none) := by
  have spanned : Each Accounting (if sampled then [.spanStart] else []) := by
    cases sampled with
    | false => exact each_nil _
    | true => exact each_cons trivial (each_nil _)
  have started : Each Accounting (.requestStart :: if sampled then [.spanStart] else []) :=
    each_cons trivial spanned
  have closed (failure : Option RequestError) {log : List Event} (order : Each Accounting log)
      (start : .requestStart ∈ log) (span : sampled = true → .spanStart ∈ log) :
      Each Accounting (close sampled failure log).1 := by
    cases sampled with
    | false => exact each_cons start order
    | true => exact each_cons (List.mem_cons_of_mem _ (span rfl)) (each_cons start order)
  unfold consumeTracked
  dsimp only
  cases begins : outcome .beginRequest with
  | some error =>
    dsimp only
    rw [balanced_iff (closed _ started _ _)]
    all_goals cases sampled <;> simp [close, List.countP_cons, Event.isRequestEnd]
  | none =>
    have ended (failure : Option RequestError) (succeeds : Bool) :
        Each Accounting (.endSettled succeeds :: .endRequest failure :: .requestStart ::
          if sampled then [.spanStart] else []) := each_cons trivial (each_cons trivial started)
    cases ends : outcome .endRequest with
    | some error =>
      dsimp only
      rw [balanced_iff (ended _ false)]
      all_goals cases sampled <;> simp [Event.isRequestEnd]
    | none =>
      dsimp only
      rw [balanced_iff (closed _ (ended _ true) _ _)]
      all_goals cases sampled <;> simp [close, List.countP_cons, Event.isRequestEnd]

end Temporal

/- The accounts of a request balance at its end, in a source and in the Temporal
   sink, exactly if it is not a refused one whose `endRequest` rejects, or in the
   sink one that was begun and whose `endRequest` rejects. -/
theorem accounts_balance {source : Source} {hasResult : Bool} {ok : Requests → RequestAction → Prop} {t : Requests}
    {i : Nat} (reached : Requests.Reached source hasResult ok t) (known : i < t.count)
    (ended : (t.request i).rest = .ended) (sampled withResult : Bool) (outcome : SinkCall → Option RequestError) :
    (Balanced (t.request i).log ↔ ¬((source = .kafka ∨ source = .custom) ∧ .duplicate ∈ (t.request i).log ∧
      .endSettled false ∈ (t.request i).log)) ∧
    (Balanced (Temporal.consumeTracked sampled withResult outcome).1 ↔
      ¬(outcome .beginRequest = none ∧ outcome .endRequest ≠ none)) := by
  constructor
  · have accounted := Requests.reached_each
      (fun streamId cancelled sampled => Request.fresh_accounted streamId cancelled sampled)
      (fun _ _ moves => Request.moves_accounted moves) reached i known
    rw [Request.ended_balanced accounted ended, Request.Unaccounted]
    cases source <;> simp [Source.refusesApart]
  · exact Temporal.consumeTracked_balanced

/-- The second request comes under the id of the first, which is pending. -/
def refusedSecond (endSucceeds : Bool) : List RequestAction :=
  [.accept "s" false true, .begins 0 true, .accept "s" false true, .begins 1 true, .ends 1 endSucceeds]

theorem accounts_balance_refused :
    ∃ t : Requests, Requests.Reached .kafka true Any t ∧ .duplicate ∈ (t.request 1).log ∧ Balanced (t.request 1).log ∧
      Balanced (Temporal.consumeTracked true true fun call => if call = .submitEndpoint then some .handler else none).1 := by
  have runs : (exec (Requests.step .kafka true) {} (refusedSecond true)).map (fun t =>
      (t.count, (t.request 1).rest, decide (.duplicate ∈ (t.request 1).log),
        decide (.endSettled false ∈ (t.request 1).log))) = some (2, .ended, true, false) := by
    decide +kernel
  obtain ⟨t, run, facts⟩ := Option.map_eq_some_iff.mp runs
  simp only [Prod.mk.injEq, decide_eq_true_eq, decide_eq_false_iff_not] at facts
  obtain ⟨count, ended, refused, settled⟩ := facts
  have reached : Requests.Reached .kafka true Any t := exec_steps run
  have balance := accounts_balance reached (by omega) ended true true
    (fun call => if call = .submitEndpoint then some .handler else none)
  exact ⟨t, reached, refused, balance.1.mpr (fun unaccounted => settled unaccounted.2.2), balance.2.mpr (by decide)⟩

theorem refused_unaccounted {source : Source} (apart : source = .kafka ∨ source = .custom) :
    ¬∀ t : Requests, Requests.Reached source true Any t →
      ∀ i < t.count, (t.request i).rest = .ended → Balanced (t.request i).log := by
  intro all
  have runs : (exec (Requests.step source true) {} (refusedSecond false)).map (fun t =>
      (t.count, (t.request 1).rest, (t.request 1).log)) = some (2, .ended, [.spanEnd, .endSettled false,
        .endRequest (some .duplicate), .duplicate, .requestStart, .spanStart]) := by
    rcases apart with same | same <;> rw [same] <;> decide +kernel
  obtain ⟨t, run, facts⟩ := Option.map_eq_some_iff.mp runs
  simp only [Prod.mk.injEq] at facts
  obtain ⟨count, ended, log⟩ := facts
  have balanced := all t (exec_steps run) 1 (by omega) ended
  have once := balanced.requests.1 [.spanEnd, .endSettled false, .endRequest (some .duplicate), .duplicate]
    [.spanStart] log
  cases once

/- The Kafka and custom sources and the Temporal sink each leave a request that
   they have entered as started. -/
theorem started_and_never_ended :
    (¬∀ t : Requests, Requests.Reached .kafka true Any t →
      ∀ i < t.count, (t.request i).rest = .ended → Balanced (t.request i).log) ∧
    (¬∀ t : Requests, Requests.Reached .custom true Any t →
      ∀ i < t.count, (t.request i).rest = .ended → Balanced (t.request i).log) ∧
    ¬∀ sampled withResult outcome, Balanced (Temporal.consumeTracked sampled withResult outcome).1 := by
  refine ⟨refused_unaccounted (.inl rfl), refused_unaccounted (.inr rfl), ?_⟩
  intro all
  have balanced := all false false fun call => if call = .endRequest then some .ending else none
  have once := balanced.requests.1 [.endSettled false, .endRequest none] [] rfl
  cases once

end Sinks
