import TsServiceLib.Operators.SubStreamSerial
import Mathlib.Algebra.BigOperators.Group.Finset.Basic
import Mathlib.Algebra.GroupWithZero.Nat
import Mathlib.Order.WellFounded

/-!
What happens when nothing new comes in. The jobs are run, the callbacks answer
and their promises settle, in any order that the queue allows. That ends, and
nothing is left waiting then.
-/
namespace SubStreams
open Function Transitions LocalValues EventLogs
variable {V : Type}

/-- The actions that bring in nothing new. -/
def Draining (_ : State V) (a : Action V) : Prop :=
  a = .run ∨ a = .leave ∨ (∃ reply, a = .answer reply) ∨ ∃ k outcome, a = .settle k outcome

/-- No job is queued, no callback is running and no other code is. -/
structure Drained (s : State V) : Prop where
  jobs : s.jobs = []
  stack : s.stack = []
  callbacks : ∀ k < s.callbacks, (s.callback k).stage ≠ .pending

def Job.isWake : Job → Bool
  | .wake _ _ => true
  | _ => false

def Frame.isCallback : Frame → Bool
  | .callback _ _ => true
  | .foreign => false

def Stage.unsettled : Stage → Nat
  | .settled => 0
  | _ => 1

/-- What a pending promise, a job and a frame have ahead of them until a promise
    settles, a callback answers or a delivery is dropped. -/
def Stage.ahead : Stage → Nat
  | .pending => 6
  | _ => 0

def Job.ahead : Job → Nat
  | .foreign => 2
  | .react _ _ => 5
  | .clear _ _ => 4
  | .relay _ => 1
  | .adopt _ _ => 2
  | .settle _ _ => 1
  | .wake _ _ => 8

def Frame.ahead : Frame → Nat
  | .foreign => 1
  | .callback _ _ => 7

/-- The promises, callbacks and deliveries that are not through. -/
def State.unresolved (s : State V) : Nat :=
  ∑ k ∈ Finset.range s.callbacks, (s.callback k).stage.unsettled + s.stack.countP Frame.isCallback +
    s.reactions.countP (fun r => r.2.isWake) + s.jobs.countP Job.isWake

def State.ahead (s : State V) : Nat :=
  ∑ k ∈ Finset.range s.callbacks, (s.callback k).stage.ahead + (s.stack.map Frame.ahead).sum + (s.jobs.map Job.ahead).sum

def Lower (t s : State V) : Prop := Prod.Lex (· < ·) (· < ·) (t.unresolved, t.ahead) (s.unresolved, s.ahead)

theorem lower_wf : WellFounded (Lower : State V → State V → Prop) :=
  InvImage.wf (fun s : State V => (s.unresolved, s.ahead)) (WellFounded.prod_lex wellFounded_lt wellFounded_lt)

theorem lower_of_fewer {s t : State V} (fewer : t.unresolved < s.unresolved) : Lower t s := Prod.Lex.left _ _ fewer

theorem lower_of_ahead {s t : State V} (unresolved : t.unresolved ≤ s.unresolved) (ahead : t.ahead < s.ahead) :
    Lower t s := by
  rcases Nat.lt_or_eq_of_le unresolved with fewer | same
  · exact lower_of_fewer fewer
  · rw [Lower, same]
    exact Prod.Lex.right _ ahead

theorem passive_rank {s t : State V} (passive : Passive s t) : t.unresolved = s.unresolved ∧ t.ahead = s.ahead := by
  simp only [State.unresolved, State.ahead, passive.callbacks, passive.callback, passive.stack, passive.reactions,
    passive.jobs, and_self]

/-- A sum over the promises changes by what one of them changes. -/
theorem sum_stageOf (s : State V) {k : Nat} (made : k < s.callbacks) (stage : Stage) (f : Stage → Nat) :
    ∑ i ∈ Finset.range s.callbacks, f ((s.stageOf k stage).callback i).stage + f (s.callback k).stage =
      ∑ i ∈ Finset.range s.callbacks, f (s.callback i).stage + f stage := by
  have mem := Finset.mem_range.mpr made
  rw [← Finset.add_sum_erase _ _ mem, ← Finset.add_sum_erase _ (fun i => f (s.callback i).stage) mem]
  have others : ∑ i ∈ (Finset.range s.callbacks).erase k, f ((s.stageOf k stage).callback i).stage =
      ∑ i ∈ (Finset.range s.callbacks).erase k, f (s.callback i).stage := by
    apply Finset.sum_congr rfl
    intro i inside
    simp only [State.stageOf, update_of_ne (Finset.ne_of_mem_erase inside)]
  rw [others]
  simp only [State.stageOf, update_self]
  omega

theorem delivered_rank {s t : State V} {c e : Nat} (result : Delivered s c e t) :
    t.unresolved ≤ s.unresolved + 1 ∧ t.ahead ≤ s.ahead + 7 := by
  cases result with
  | dropped passive closed =>
    rw [(passive_rank passive).1, (passive_rank passive).2]
    omega
  | waits active result =>
    subst result
    simp [State.unresolved, State.ahead, Job.isWake]
    omega
  | starts still free uncancelled result =>
    subst result
    simp [State.unresolved, State.ahead, State.enter, List.countP_cons, Frame.isCallback, Frame.ahead]
    omega

theorem woken_count (s : State V) (k : Nat) (fulfilled : Bool) :
    (((s.reactions.filter fun r => r.1 = k).map Prod.snd).filter (State.passes fulfilled)).countP Job.isWake +
      (s.reactions.filter fun r => r.1 ≠ k).countP (fun r => r.2.isWake) ≤ s.reactions.countP fun r => r.2.isWake := by
  have split := List.countP_eq_countP_filter_add s.reactions (fun r => r.2.isWake) (fun r => decide (r.1 = k))
  have passed := List.Sublist.countP_le (p := Job.isWake) (List.filter_sublist (p := State.passes fulfilled)
    (l := (s.reactions.filter fun r => r.1 = k).map Prod.snd))
  rw [List.countP_map] at passed
  have others : s.reactions.filter (fun r => r.1 ≠ k) = s.reactions.filter fun r => !decide (r.1 = k) := by
    congr
    funext r
    simp
  rw [others, split]
  have same : (Job.isWake ∘ Prod.snd : Nat × Job → Bool) = fun r => r.2.isWake := rfl
  rw [same] at passed
  omega

theorem runJob_lower {s : State V} (held : Held s) (chained : Chained s) (alone : s.stack = []) {job : Job}
    {rest : List Job} (head : s.jobs = job :: rest) : Lower (({ s with jobs := rest } : State V).runJob job) s := by
  cases job with
  | foreign =>
    apply lower_of_ahead
    · simp [State.runJob, State.unresolved, alone, head, Frame.isCallback, Job.isWake]
    · simp [State.runJob, State.ahead, alone, head, Frame.ahead, Job.ahead]
      omega
  | react k outcome =>
    obtain ⟨fulfilled, passive, _⟩ := react_passive s k outcome rest
    obtain ⟨unresolved, ahead⟩ := passive_rank passive
    apply lower_of_ahead
    · rw [unresolved]
      simp [State.unresolved, head, Job.isWake]
    · rw [ahead]
      simp [State.ahead, head, Job.ahead]
      omega
  | clear k fulfilled =>
    apply lower_of_ahead
    · simp [State.runJob, State.unresolved, State.queue, State.setCall, head, Job.isWake]
    · simp [State.runJob, State.ahead, State.queue, State.setCall, head, Job.ahead]
      omega
  | relay k =>
    apply lower_of_ahead
    · simp [State.runJob, State.unresolved, head, Job.isWake]
    · simp [State.runJob, State.ahead, head, Job.ahead]
  | adopt k fulfilled =>
    apply lower_of_ahead
    · simp [State.runJob, State.unresolved, State.queue, head, Job.isWake]
    · simp [State.runJob, State.ahead, State.queue, head, Job.ahead]
      omega
  | settle k fulfilled =>
    have settling := settling_of_job chained (head ▸ List.mem_cons_self) (k := k) (by simp [ofCallback])
    have made : k < s.callbacks := by
      by_contra beyond
      rw [chained.unmade k (by omega)] at settling
      cases settling
    have fewer := sum_stageOf s made .settled Stage.unsettled
    have woken := woken_count s k fulfilled
    rw [settling, show Stage.settled.unsettled = 0 from rfl, show Stage.settling.unsettled = 1 from rfl] at fewer
    apply lower_of_fewer
    have jobs : s.jobs.countP Job.isWake = rest.countP Job.isWake := by simp [head, Job.isWake]
    simp only [State.runJob, State.unresolved, State.queue, List.countP_append, jobs]
    simp only [State.stageOf] at fewer ⊢
    omega
  | wake c e =>
    have result : Delivered { s with jobs := rest } c e (({ s with jobs := rest } : State V).runJob (.wake c e)) := by
      apply delivered
      exact held
    obtain ⟨unresolved, ahead⟩ := delivered_rank result
    have before : s.unresolved = ({ s with jobs := rest } : State V).unresolved + 1 := by
      simp [State.unresolved, head, List.countP_cons, Job.isWake]
      omega
    have behind : s.ahead = ({ s with jobs := rest } : State V).ahead + 8 := by
      simp [State.ahead, head, Job.ahead]
      omega
    apply lower_of_ahead
    · omega
    · omega

theorem answer_lower {s : State V} {c e : Nat} {below : List Frame} (top : s.stack = .callback c e :: below)
    (reply : Reply) : Lower (({ s with stack := below } : State V).answer c e reply) s := by
  have popped : ({ s with stack := below } : State V).unresolved + 1 = s.unresolved := by
    simp [State.unresolved, top, List.countP_cons, Frame.isCallback]
    omega
  cases reply with
  | returns enough =>
    apply lower_of_fewer
    have passive : Passive { s with stack := below } (({ s with stack := below } : State V).answer c e (.returns enough)) := by
      cases enough with
      | true => exact (passive_ended _ c e).trans (passive_finish _ c none)
      | false => exact passive_ended _ c e
    rw [(passive_rank passive).1]
    omega
  | throws error =>
    apply lower_of_fewer
    have passive : Passive { s with stack := below } (({ s with stack := below } : State V).answer c e (.throws error)) :=
      (passive_ended _ c e).trans (passive_finish _ c _)
    rw [(passive_rank passive).1]
    omega
  | promises =>
    have others : ∀ f : Stage → Nat,
        ∑ k ∈ Finset.range (s.callbacks + 1), f ((update s.callback s.callbacks ⟨c, e, .pending⟩) k).stage =
          ∑ k ∈ Finset.range s.callbacks, f (s.callback k).stage + f .pending := by
      intro f
      rw [Finset.sum_range_succ, update_self]
      congr 1
      apply Finset.sum_congr rfl
      intro k inside
      rw [update_of_ne (Nat.ne_of_lt (Finset.mem_range.mp inside))]
    apply lower_of_ahead
    · rw [← popped]
      simp only [State.answer, State.unresolved, State.setCall, others]
      simp only [Stage.unsettled]
      omega
    · simp only [State.answer, State.ahead, State.setCall, others, top, List.map_cons, List.sum_cons]
      simp only [Stage.ahead, Frame.ahead]
      omega

/-- Every action that brings in nothing new brings the state nearer to its end. -/
theorem draining_lower {s t : State V} {a : Action V} (held : Held s) (chained : Chained s) (draining : Draining s a)
    (next : step s a = some t) : Lower t s := by
  rcases draining with rfl | rfl | ⟨reply, rfl⟩ | ⟨k, outcome, rfl⟩
  · simp only [step] at next
    split at next
    · rename_i job rest alone head
      cases next
      exact runJob_lower held chained alone head
    · cases next
  · simp only [step] at next
    split at next
    · rename_i below top
      cases next
      apply lower_of_ahead
      · simp [State.unresolved, top, Frame.isCallback]
      · simp [State.ahead, top, Frame.ahead]
    · cases next
  · simp only [step] at next
    split at next
    · rename_i c e below top
      cases next
      exact answer_lower top reply
    · cases next
  · simp only [step, Option.ite_none_right_eq_some, Option.some.injEq] at next
    obtain ⟨⟨made, pending⟩, rfl⟩ := next
    have same := passive_rank (passive_ended ((s.stageOf k .settling).queue [.react k outcome])
      (s.callback k).call (s.callback k).emission)
    have unsettled := sum_stageOf s made .settling Stage.unsettled
    have ahead := sum_stageOf s made .settling Stage.ahead
    rw [pending, show Stage.pending.unsettled = 1 from rfl, show Stage.settling.unsettled = 1 from rfl] at unsettled
    rw [pending, show Stage.pending.ahead = 6 from rfl, show Stage.settling.ahead = 0 from rfl] at ahead
    apply lower_of_ahead
    · rw [same.1]
      have plain : List.countP Job.isWake [Job.react k outcome] = 0 := rfl
      simp only [State.unresolved, State.queue, State.stageOf, List.countP_append, plain] at unsettled ⊢
      omega
    · rw [same.2]
      have queued : (List.map Job.ahead [Job.react k outcome]).sum = 5 := rfl
      simp only [State.ahead, State.queue, State.stageOf, List.map_append, List.sum_append, queued] at ahead ⊢
      omega

/-- Where nothing can go on without something new, nothing is left. -/
theorem drained_of_stuck {s : State V} (stuck : ∀ a, Draining s a → step s a = none) : Drained s := by
  have stack : s.stack = [] := by
    cases top : s.stack with
    | nil => rfl
    | cons frame below =>
      cases frame with
      | foreign =>
        have none := stuck .leave (.inr (.inl rfl))
        simp [step, top] at none
      | callback c e =>
        have none := stuck (.answer (.returns false)) (.inr (.inr (.inl ⟨_, rfl⟩)))
        simp [step, top] at none
  constructor
  · cases head : s.jobs with
    | nil => rfl
    | cons job rest =>
      have none := stuck .run (.inl rfl)
      simp [step, stack, head] at none
  · exact stack
  · intro k made pending
    have none := stuck (.settle k (.done false)) (.inr (.inr (.inr ⟨k, _, rfl⟩)))
    simp [step, made, pending] at none

/-- What holds of a SubStream in every state of every run. -/
structure Sound (s : State V) : Prop where
  held : Held s
  named : Named s
  chained : Chained s
  kept : Kept s
  recorded : Recorded s
  finished : Finished s

theorem initial_sound : Sound (initial V) := by
  constructor
  · exact nofun
  · rintro c e (started | ⟨k, waits⟩ | woken | frame | ⟨k, made, _⟩)
    · cases started
    · cases waits
    · cases woken
    · cases frame
    · cases made
  · constructor
    · exact fun _ _ => rfl
    · exact fun _ => rfl
    · exact nofun
    · exact nofun
    · exact nofun
    · exact nofun
    · exact nofun
  · constructor
    · intro e emission found
      simp [initial] at found
    · rintro c e ⟨emission, found, _⟩
      simp [initial] at found
  · exact ⟨fun _ _ => rfl, nofun, nofun, each_nil _⟩
  · intro c k awaits
    simp [initial, Phase.awaited] at awaits

theorem step_sound (s : State V) (a : Action V) (t : State V) (sound : Sound s) (next : step s a = some t) : Sound t := by
  have move := step_move sound.held next
  constructor
  · exact move_held sound.held move
  · exact move_named sound.named move
  · exact move_chained sound.named sound.chained move
  · exact move_kept sound.chained sound.kept move
  · exact move_recorded sound.named sound.recorded move
  · exact move_finished sound.chained sound.finished move

theorem steps_sound {s : State V} {ok : State V → Action V → Prop} (run : Steps step ok (initial V) s) : Sound s :=
  steps_invariant Sound (fun s a t sound _ next => step_sound s a t sound next) run initial_sound

/-- Nothing goes on for ever when nothing new comes in. -/
theorem no_endless_draining (states : Nat → State V) (sound : Sound (states 0))
    (draining : ∀ n, ∃ a, Draining (states n) a ∧ step (states n) a = some (states (n + 1))) : False := by
  have all : ∀ n, Sound (states n) := by
    intro n
    induction n with
    | zero => exact sound
    | succ n ih =>
      obtain ⟨a, _, next⟩ := draining n
      exact step_sound _ a _ ih next
  have endless : ∀ s : State V, ∀ n, states n = s → False := by
    intro s
    induction s using lower_wf.induction with
    | h s ih =>
      intro n same
      obtain ⟨a, is, next⟩ := draining n
      have lower := draining_lower (all n).held (all n).chained is next
      exact ih (states (n + 1)) (same ▸ lower) (n + 1) rfl
  exact endless _ 0 rfl

theorem none_waits {s : State V} (chained : Chained s) (drained : Drained s) (c e : Nat) : ¬ Waits s c e := by
  rintro (⟨k, waits⟩ | woken)
  · have open' := chained.waits k _ waits
    have one := chained.single k
    rw [drained.jobs] at one
    cases stage : (s.callback k).stage with
    | pending =>
      apply drained.callbacks k
      · by_contra beyond
        exact open' (chained.unmade k (by omega))
      · exact stage
    | settling => simp [stage, Stage.queued] at one
    | settled => exact open' stage
  · rw [drained.jobs] at woken
    cases woken

/-- The contract of a SubStream, in a state that a run has reached. -/
structure Isolated (s : State V) : Prop where
  /-- A value reaches no collector but that of its innermost call. -/
  only_innermost : ∀ c e, .started c e ∈ s.log →
    ∃ emission, s.emissions[e]? = some emission ∧ Innermost s.callers emission.context c
  /-- There it has arrived, the call is closed, or it waits. -/
  answered : ∀ c e emission, s.emissions[e]? = some emission → Innermost s.callers emission.context c →
    .started c e ∈ s.log ∨ (s.call c).closed = true ∨ Waits s c e
  /-- Whatever goes on without new input, it ends, and then nothing waits. -/
  ends : ∀ states : Nat → State V, states 0 = s →
    ¬ ∀ n, ∃ a, Draining (states n) a ∧ step (states n) a = some (states (n + 1))
  reached : ∀ t, Steps step Draining s t → (∀ a, Draining t a → step t a = none) →
    ∀ c e emission, t.emissions[e]? = some emission → Innermost t.callers emission.context c →
      .started c e ∈ t.log ∨ (t.call c).closed = true
  /-- No callback starts after the end of its call or the cancellation of its context. -/
  none_late : Each (fun event before => ∀ c e, event = .started c e →
    .closed c ∉ before ∧ .cancelled (s.call c).caller.scope ∉ before) s.log
  /-- The callback that `close` found active has ended when `consume` returns. -/
  returned : ∀ c k outcome, (s.call c).phase = .returned (some k) outcome →
    (s.callback k).call = c ∧ (s.callback k).stage = .settled
  /-- Callbacks do not overlap unless one emits into its own call; none is left then. -/
  serial : Steps step Considerate (initial V) s → ∀ c, (s.running c).length ≤ 1 ∧
    ∀ awaited outcome, (s.call c).phase = .returned awaited outcome → s.running c = []

theorem steps_serial {s : State V} (run : Steps step Considerate (initial V) s) : Serial s := by
  have both := steps_invariant (fun s : State V => Sound s ∧ Serial s) ?_ run ⟨initial_sound, ?_⟩
  · exact both.2
  · rintro s a t ⟨sound, serial⟩ considerate next
    have move := step_move sound.held next
    exact ⟨step_sound s a t sound next, move_serial sound.named sound.chained serial considerate move⟩
  · constructor
    · rintro k (pending | ⟨job, mem, _⟩)
      · cases pending
      · cases mem
    · intro c inside
      cases inside
    · exact fun _ => Nat.zero_le _
    · intro c a awaits
      cases awaits
      exact ⟨rfl, rfl, by rintro k (pending | ⟨job, mem, _⟩) <;> contradiction⟩

theorem innermost_known {s : State V} (kept : Kept s) {c e : Nat} {emission : Emission V}
    (found : s.emissions[e]? = some emission) (inner : Innermost s.callers emission.context c) : Known s c e := by
  have genuine := kept.genuine e emission found
  exact ⟨emission, found, (localValue_iff_innermost genuine).mpr inner, genuine⟩

/- Every run: any nesting and interleaving of calls, emissions under any derived
   contexts, callbacks that answer at once or later or fail, cancellations. -/
theorem substream_calls_isolated {s : State V} (run : Steps step Any (initial V) s) : Isolated s := by
  have sound := steps_sound run
  constructor
  · intro c e started
    obtain ⟨emission, found, target, genuine⟩ := sound.named c e (.inl started)
    exact ⟨emission, found, innermost_of_localValue genuine target⟩
  · intro c e emission found inner
    exact sound.kept.answered c e (innermost_known sound.kept found inner)
  · intro states start draining
    exact no_endless_draining states (start ▸ sound) draining
  · intro t further stuck c e emission found inner
    have sound' : Sound t :=
      steps_invariant Sound (fun s a t sound _ next => step_sound s a t sound next) further sound
    have waits := none_waits sound'.chained (drained_of_stuck stuck) c e
    rcases sound'.kept.answered c e (innermost_known sound'.kept found inner) with started | closed | waiting
    · exact .inl started
    · exact .inr closed
    · exact absurd waiting waits
  · exact sound.recorded.after
  · intro c k outcome phase
    obtain ⟨_, call, settled⟩ := sound.finished c k (by rw [phase]; rfl)
    exact ⟨call, settled (by rw [phase]; rfl)⟩
  · intro considerate c
    have serial := steps_serial considerate
    exact ⟨running_le_one serial c, fun awaited outcome returned => none_running serial sound.finished returned⟩

def considerateCheck (s : State V) : Action V → Bool
  | .emit context _ =>
    match context.localValue .call with
    | some c => s.stack.countP (Frame.inside c) = 0
    | none => true
  | _ => true

theorem considerateCheck_sound (s : State V) (a : Action V) (passed : considerateCheck s a = true) : Considerate s a := by
  rintro context value c rfl target
  simpa [considerateCheck, target] using passed

/-- A call makes another one inside it. The inner one gets one value and has
    enough, the outer one gets two, the second of which waits for the first. -/
def nestedCalls : List (Action Nat) :=
  let outer := invocation 0 (.root 0)
  let inner := invocation 1 (.derived outer 0)
  [.post, .run, .consume (.root 0), .emit outer 10, .answer .promises, .emit outer 11, .consume (.derived outer 0),
    .emit (.derived inner 0) 12, .answer (.returns true), .settle 0 (.done false), .leave] ++ List.replicate 6 .run ++
    [.answer (.returns true), .post, .run, .bodyEnds 0 none, .leave, .resume 0, .resume 0, .resume 0]

theorem substream_calls_nested : ∃ s : State Nat, Isolated s ∧ s.log.reverse =
    [.emitted 0, .started 0 0, .emitted 1, .emitted 2, .started 1 2, .ended 1 2, .closed 1, .ended 0 0, .started 0 1,
      .ended 0 1, .closed 0, .returned 0] ∧ ∀ c, (s.running c).length ≤ 1 := by
  have runs : (execWhere step considerateCheck (initial Nat) nestedCalls).map (fun s => s.log.reverse) = some
      [.emitted 0, .started 0 0, .emitted 1, .emitted 2, .started 1 2, .ended 1 2, .closed 1, .ended 0 0, .started 0 1,
        .ended 0 1, .closed 0, .returned 0] := by
    decide +kernel
  obtain ⟨s, run, log⟩ := Option.map_eq_some_iff.mp runs
  have considerate := execWhere_steps considerateCheck_sound run
  have isolated := substream_calls_isolated (steps_mono (fun _ _ _ => trivial) considerate)
  exact ⟨s, isolated, log, fun c => (isolated.serial considerate c).1⟩

end SubStreams
