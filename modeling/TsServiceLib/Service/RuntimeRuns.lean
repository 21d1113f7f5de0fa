import TsServiceLib.Service.StopCalls

/-!
The start keeps the invariant of the runtime, and so does every step: what
holds of the stops holds in every state that a run reaches.
-/
namespace Services
namespace Runtime
open Transitions Ledger

section Starting
variable {r r' : Runtime} {s : Startup}

/-- What a start knows at work. -/
structure Starting (r : Runtime) (items : List StartItem) (categories : List Category) : Prop where
  pending : r.startupPending = true
  quiet : Quiet r
  plan : Plan r.ledger items categories

theorem pending_early (pending : r.startupPending = true) (ended : Over r) : False := by
  rw [ended.1] at pending
  cases pending

/-- The start goes on, from whichever rest `s`: no attempt and no call knows
    anything yet. -/
theorem starting_step (governed : Governed { r with startup := s }) (pending : r.startupPending = true)
    (kept : Kept (Permitted r'.ledger r'.startFailed r'.drained) r'.ledger) (startup : StartupOk r')
    (waiters : r'.waiters = r.waiters) (attempts : r'.attempt = r.attempt) (state : r'.state ≠ .created)
    (registered : ∀ c ∈ r'.ledger.completed, c < r'.ledger.components.length) : Governed r' :=
  governedBut_step governed (fun ended => (pending_early pending ended).elim) kept startup waiters
    (fun k _ => by rw [attempts]) (fun created => absurd created state) registered

theorem pending_state (governed : Governed { r with startup := s }) (pending : r.startupPending = true) : r.state ≠ .created := by
  intro created
  have ok := governed.startup
  unfold StartupOk at ok
  rw [governed.created created] at ok
  cases pending.symm.trans ok.1

/-- With nothing asked for, any permission is kept, whatever is registered. -/
theorem quiet_kept {l : Ledger} {allowed : Nat → Prop} (permitted : Nat → Prop) (kept : Kept allowed l)
    (operations : l.operations = 0) (joins : l.joins = 0) (components : List RuntimeComponent) :
    Kept permitted { l with components := components } :=
  { kept with
    joined := fun j inside => absurd inside (by simp [joins])
    permitted := fun i inside => absurd inside (by simp [operations])
    permitted_join := fun j inside => absurd inside (by simp [joins]) }

theorem failStart_governed (governed : Governed { r with startup := s }) (pending : r.startupPending = true)
    (quiet : Quiet r) : Governed r.failStart := by
  obtain ⟨operations, joins, _, _⟩ := quiet
  have started := pending_state governed pending
  have order : r.ledger.started.reverse.Sublist r.ledger.completed.reverse :=
    List.reverse_sublist.mpr governed.kept.started_sublist
  have covers : ∀ c ∈ r.ledger.started, c ∈ r.ledger.started.reverse :=
    fun c mem => List.mem_reverse.mpr mem
  have permits : ∀ c rest, r.ledger.started.reverse = c :: rest →
      Permitted r.ledger true r.drained c := by
    intro c rest shape
    rw [shape] at order covers
    exact rollback_permitted governed.kept.completed_nodup order covers
  obtain ⟨kept, grown, sequenced⟩ := beginSequence_sequenced
    (quiet_kept (Permitted r.ledger true r.drained) governed.kept operations joins r.ledger.components)
    .startup order covers permits
  apply starting_step governed pending
  · apply kept_mono kept
    intro c _ permitted
    exact permitted_grown grown id permitted
  · exact ⟨pending, rfl, rfl, sequenced⟩
  · rfl
  · rfl
  · exact started
  · change ∀ c ∈ (beginSequence r.ledger .startup r.ledger.started.reverse).2.completed,
      c < (beginSequence r.ledger .startup r.ledger.started.reverse).2.components.length
    rw [grown.completed, grown.components]
    exact governed.registered

theorem planned_itemsOf (r : Runtime) (category : Category) :
    planned (r.itemsOf category) = r.componentsOf fun c => decide (c.category = category) := by
  have none_planned : ∀ cs : List Nat, planned (cs.map .admission) = [] := by
    intro cs
    induction cs with
    | nil => rfl
    | cons c cs ih => exact ih
  have all_planned : ∀ cs : List Nat, planned (cs.map .component) = cs := by
    intro cs
    induction cs with
    | nil => rfl
    | cons c cs ih => exact congrArg (c :: ·) ih
  unfold itemsOf
  split
  · rw [planned, List.filterMap_append]
    change planned _ ++ planned _ = _
    rw [none_planned, all_planned, List.nil_append]
  · rw [List.nil_append, all_planned]

theorem mem_componentsOf {takes : RuntimeComponent → Bool} {c : Nat} (mem : c ∈ r.componentsOf takes) :
    ∃ component, r.ledger.components[c]? = some component ∧ takes component = true ∧
      c < r.ledger.components.length := by
  obtain ⟨inside, taken⟩ := List.mem_filter.mp mem
  have bound := List.mem_range.mp inside
  rw [List.getElem?_eq_getElem bound, Option.any_some] at taken
  exact ⟨_, List.getElem?_eq_getElem bound, taken, bound⟩

theorem plan_next {category : Category} {categories : List Category}
    (plan : Plan r.ledger [] (category :: categories)) :
    Plan r.ledger (r.itemsOf category) categories := by
  obtain ⟨fresh_category, categories_nodup⟩ := List.nodup_cons.mp plan.categories
  constructor
  · rw [planned_itemsOf]
    exact List.nodup_range.filter _
  · intro c mem completed
    rw [planned_itemsOf] at mem
    obtain ⟨component, found, same, _⟩ := mem_componentsOf mem
    apply plan.later c (.inl completed) component found
    rw [of_decide_eq_true same]
    exact List.mem_cons_self
  · intro c mem
    rw [planned_itemsOf] at mem
    obtain ⟨_, _, _, inside⟩ := mem_componentsOf mem
    exact inside
  · intro c known component found
    rcases known with completed | mem
    · intro later
      exact plan.later c (.inl completed) component found (List.mem_cons_of_mem _ later)
    · rw [planned_itemsOf] at mem
      obtain ⟨other, found', same, _⟩ := mem_componentsOf mem
      cases found.symm.trans found'
      rw [of_decide_eq_true same]
      exact fresh_category
  · exact categories_nodup

theorem proceed_governed (governed : Governed { r with startup := s }) {items : List StartItem}
    {categories : List Category} (starting : Starting r items categories) : Governed (r.proceed categories items) := by
  obtain ⟨pending, quiet, plan⟩ := starting
  have started := pending_state governed pending
  fun_induction proceed r categories items with
  | case1 categories c rest aborted => exact failStart_governed governed pending quiet
  | case2 categories c rest _ =>
    exact starting_step governed pending governed.kept ⟨pending, quiet, plan⟩ rfl rfl started
      governed.registered
  | case3 categories c rest =>
    exact starting_step governed pending governed.kept ⟨pending, quiet, plan⟩ rfl rfl started
      governed.registered
  | case4 =>
    exact starting_step governed pending governed.kept ⟨rfl, quiet.2.2⟩ rfl rfl (by simp)
      governed.registered
  | case5 category categories ih => exact ih (plan_next plan)

theorem built_governed (governed : Governed r) {succeeds valid : Bool}
    (built : r.built succeeds valid = some r') : Governed r' := by
  have ok := governed.startup
  unfold StartupOk at ok
  unfold Runtime.built at built
  split at built
  · rename_i categories building
    rw [building] at ok
    obtain ⟨pending, quiet, completed, nodup⟩ := ok
    split at built
    · cases built
      exact failStart_governed (s := r.startup) governed pending quiet
    · cases built
      apply proceed_governed (s := r.startup) governed ⟨pending, quiet, ?_⟩
      constructor
      · exact List.nodup_nil
      · intro c mem
        cases mem
      · intro c mem
        cases mem
      · intro c known
        rw [completed] at known
        rcases known with mem | mem <;> cases mem
      · exact nodup
  · cases built

theorem completed_governed (governed : Governed r) {c : Nat} {items : List StartItem}
    {categories : List Category} (starting : Starting r (.component c :: items) categories) :
    Governed { r with ledger := r.ledger.complete c, startup := .awaiting (.admission c) items categories } ∧
      Starting { r with ledger := r.ledger.complete c } items categories := by
  obtain ⟨pending, quiet, plan⟩ := starting
  obtain ⟨fresh, nodup⟩ := List.nodup_cons.mp plan.nodup
  have unstarted := plan.fresh c List.mem_cons_self
  have plan' : Plan (r.ledger.complete c) items categories := by
    constructor
    · exact nodup
    · intro c' mem completed
      rcases List.mem_append.mp completed with before | last
      · exact plan.fresh c' (List.mem_cons_of_mem _ mem) before
      · rw [List.mem_singleton.mp last] at mem
        exact fresh mem
    · exact fun c' mem => plan.listed c' (List.mem_cons_of_mem _ mem)
    · intro c' known
      apply plan.later c'
      rcases known with completed | mem
      · rcases List.mem_append.mp completed with before | last
        · exact .inl before
        · rw [List.mem_singleton.mp last]
          exact .inr List.mem_cons_self
      · exact .inr (List.mem_cons_of_mem _ mem)
    · exact plan.categories
  have started := pending_state (s := r.startup) governed pending
  refine ⟨?_, pending, quiet, plan'⟩
  apply starting_step (s := r.startup) governed pending
  · exact complete_kept governed.kept _ unstarted ⟨quiet.1, quiet.2.1⟩
  · exact ⟨pending, quiet, { plan' with }⟩
  · rfl
  · rfl
  · exact started
  · intro c' mem
    rcases List.mem_append.mp mem with before | last
    · exact governed.registered c' before
    · rw [List.mem_singleton.mp last]
      exact plan.listed c List.mem_cons_self

theorem itemSettles_governed (governed : Governed r) {succeeds : Bool}
    (settled : r.itemSettles succeeds = some r') : Governed r' := by
  have ok := governed.startup
  unfold StartupOk at ok
  unfold itemSettles at settled
  split at settled
  · rename_i item items categories awaiting
    rw [awaiting] at ok
    obtain ⟨pending, quiet, plan⟩ := ok
    split at settled
    · cases settled
      exact failStart_governed (s := r.startup) governed pending quiet
    · cases item with
      | component c =>
        obtain ⟨governed', starting⟩ := completed_governed governed ⟨pending, quiet, plan⟩
        dsimp only at settled
        split at settled
        · cases settled
          exact failStart_governed governed' starting.pending starting.quiet
        · cases settled
          exact proceed_governed governed' starting
      | admission c =>
        dsimp only at settled
        split at settled
        · cases settled
          exact failStart_governed (s := r.startup) governed pending quiet
        · cases settled
          exact proceed_governed (s := r.startup) governed ⟨pending, quiet, { plan with }⟩
  · cases settled

theorem finishStart_governed (governed : Governed r) {sequence : Sequence}
    (rolling : r.startup = .rolling sequence) {rolledBack : Bool}
    (empty : rolledBack = true → r.ledger.started = []) : Governed (r.finishStart rolledBack) := by
  have ok := governed.startup
  unfold StartupOk at ok
  rw [rolling] at ok
  obtain ⟨pending, failed, rollback, _⟩ := ok
  apply starting_step (s := r.startup) governed pending
  · exact governed.kept
  · refine ⟨rfl, failed, ?_⟩
    intro done
    cases rolledBack with
    | true => exact empty rfl
    | false => simp [finishStart, rollback] at done
  · rfl
  · rfl
  · simp only [finishStart]
    split <;> simp
  · exact governed.registered

theorem resumeStart_governed (governed : Governed r) {seen : Bool}
    (resumed : r.resumeStart seen = some r') : Governed r' := by
  have ok := governed.startup
  unfold StartupOk at ok
  unfold resumeStart at resumed
  split at resumed
  · rename_i sequence rolling
    rw [rolling] at ok
    obtain ⟨pending, failed, rollback, sequenced⟩ := ok
    have started := pending_state (s := r.startup) governed pending
    split at resumed
    · cases resumed
    · cases resumed
      exact finishStart_governed governed rolling (by simp)
    · rename_i done
      cases resumed
      exact finishStart_governed governed rolling (fun _ => resume_done governed.kept sequenced done)
    · rename_i next
      cases resumed
      obtain ⟨kept, grown, sequenced'⟩ := resume_next governed.kept sequenced (by
        intro c rest order covers
        rw [failed]
        exact rollback_permitted governed.kept.completed_nodup order covers) next
      apply starting_step (s := r.startup) governed pending
      · apply kept_mono kept
        intro c _ permitted
        exact permitted_grown grown id permitted
      · exact ⟨pending, failed, rollback, sequenced'⟩
      · rfl
      · rfl
      · exact started
      · rw [grown.completed, grown.components]
        exact governed.registered
  · cases resumed

theorem created_idle (governed : Governed r) (created : r.state = .created) :
    r.startupPending = false ∧ r.ledger.completed = [] ∧ Quiet r := by
  have ok := governed.startup
  unfold StartupOk at ok
  rw [governed.created created] at ok
  obtain ⟨pending, completed, failed, rollback⟩ := ok
  refine ⟨pending, completed, ?_, ?_, failed, rollback⟩
  · apply Nat.eq_zero_of_not_pos
    intro some
    have asked := governed.kept.asked 0 some
    rw [completed] at asked
    cases asked
  · apply Nat.eq_zero_of_not_pos
    intro some
    have joined := (governed.kept.joined 0 some).1
    rw [completed] at joined
    cases joined

theorem start_governed (governed : Governed r) (context : Nat) (admission : Bool) :
    Governed (r.start context admission) := by
  unfold start
  split
  · rename_i created
    obtain ⟨_, completed, quiet⟩ := created_idle governed created
    have early : ¬Over r := fun ended => ended.2 created
    apply governedBut_step governed (fun ended => absurd ended early)
    · exact governed.kept
    · exact ⟨rfl, quiet, completed, (by decide : startOrder.Nodup).filter _⟩
    · rfl
    · exact fun _ _ => rfl
    · intro other
      cases other
    · exact governed.registered
  · exact governed

theorem register_governed (governed : Governed r) (component : RuntimeComponent) :
    Governed (r.register component) := by
  unfold register
  split
  · exact governed
  · rename_i accepted
    have created : r.state = .created := Classical.not_not.mp fun other => accepted (.inl other)
    obtain ⟨pending, completed, operations, joins, failed, rollback⟩ := created_idle governed created
    have early : ¬Over r := fun ended => ended.2 created
    apply governedBut_step governed (fun ended => absurd ended early)
    · exact quiet_kept _ governed.kept operations joins _
    · have ok := governed.startup
      unfold StartupOk
      simp only [governed.created created]
      exact ⟨pending, completed, failed, rollback⟩
    · rfl
    · exact fun _ _ => rfl
    · exact governed.created
    · intro c mem
      simp only [completed] at mem
      cases mem

end Starting

section Runs
variable {r r' : Runtime}

/-- The stops go on by themselves: only the ledger changes, and some stop has
    been asked for. -/
theorem ledger_governed (governed : Governed r) {l : Ledger}
    (kept : Kept (Permitted r.ledger r.startFailed r.drained) l ∧ Grown r.ledger l)
    (asked : 0 < r.ledger.operations ∨ 0 < r.ledger.joins) : Governed { r with ledger := l } := by
  obtain ⟨kept, grown⟩ := kept
  have startup : StartupOk { r with ledger := l } := by
    have ok := governed.startup
    unfold StartupOk Quiet at *
    dsimp only
    split
    · rename_i idle
      rw [idle] at ok
      exact ⟨ok.1, grown.completed.trans ok.2.1, ok.2.2⟩
    · rename_i building
      rw [building] at ok
      omega
    · rename_i awaiting
      rw [awaiting] at ok
      omega
    · rename_i rolling
      rw [rolling] at ok
      obtain ⟨pending, failed, rollback, sequenced⟩ := ok
      exact ⟨pending, failed, rollback, sequenced_grown grown sequenced⟩
    · rename_i fulfilled
      rw [fulfilled] at ok
      exact ok
    · rename_i rejected
      rw [rejected] at ok
      exact ⟨ok.1, ok.2.1, fun done => started_empty grown (ok.2.2 done)⟩
  have onward : Over r → Onward r { r with ledger := l } := fun ended => ⟨grown, ended, rfl, id⟩
  apply governedBut_step governed onward
  · apply kept_mono kept
    intro c _ permitted
    exact permitted_grown grown id permitted
  · exact startup
  · rfl
  · exact fun _ _ => rfl
  · exact governed.created
  · dsimp only
    rw [grown.completed, grown.components]
    exact governed.registered

theorem aside_governed (governed : Governed r) (contexts : Contexts) (tasks : Registry) :
    Governed { r with contexts := contexts, tasks := tasks } :=
  governedBut_step governed (fun ended => onward_same ended rfl rfl ended.2 rfl id) governed.kept
    (startupOk_same rfl governed.startup) rfl (fun _ _ => rfl) governed.created governed.registered

theorem invoke_asked {l l' : Ledger} {i : Nat} (invoked : l.invoke i = some l') : 0 < l.operations := by
  unfold invoke at invoked
  split at invoked
  · omega
  · cases invoked

theorem answer_asked {l l' : Ledger} {i : Nat} {failure : Option Failure}
    (answered : l.answer i failure = some l') : 0 < l.operations := by
  unfold answer at answered
  split at answered
  · omega
  · cases answered

theorem settle_asked {l l' : Ledger} {i : Nat} (settled : l.settle i = some l') : 0 < l.operations := by
  unfold settle at settled
  split at settled
  · omega
  · cases settled

theorem rejoin_asked {l l' : Ledger} {x : Contexts} {j : Nat} (rejoined : l.rejoin x j = some l') :
    0 < l.joins := by
  unfold rejoin at rejoined
  split at rejoined
  · omega
  · cases rejoined

theorem follow_asked {l l' : Ledger} {j : Nat} (followed : l.follow j = some l') : 0 < l.joins := by
  unfold follow at followed
  split at followed
  · omega
  · cases followed

theorem perform_governed (governed : Governed r) {a : Action} (performed : r.perform a = some r') :
    Governed r' := by
  have stops : ∀ l : Option Ledger, (∀ l', l = some l' →
      (Kept (Permitted r.ledger r.startFailed r.drained) l' ∧ Grown r.ledger l') ∧
        (0 < r.ledger.operations ∨ 0 < r.ledger.joins)) → r.withLedger l = some r' → Governed r' := by
    intro l next changed
    obtain ⟨l', found, same⟩ := Option.map_eq_some_iff.mp changed
    subst same
    exact ledger_governed governed (next l' found).1 (next l' found).2
  cases a with
  | register component =>
    cases performed
    exact register_governed governed component
  | start context admission =>
    cases performed
    exact start_governed governed context admission
  | built succeeds valid => exact built_governed governed performed
  | itemSettles succeeds => exact itemSettles_governed governed performed
  | resumeStart seen => exact resumeStart_governed governed performed
  | stop context =>
    cases performed
    exact stop_governed governed
  | stopFromListener context joined => exact stopFromListener_governed governed performed
  | resumeAttempt k seen => exact resumeAttempt_governed governed performed
  | poll k => exact poll_governed governed performed
  | drainTimeout k => exact drainTimeout_governed governed performed
  | release => exact release_governed governed performed
  | resumeCall n seen => exact resumeCall_governed governed performed
  | invoke i =>
    exact stops _ (fun l' next => ⟨invoke_kept governed.kept next, .inl (invoke_asked next)⟩) performed
  | answer i failure =>
    exact stops _ (fun l' next => ⟨answer_kept governed.kept next, .inl (answer_asked next)⟩) performed
  | settle i =>
    exact stops _ (fun l' next => ⟨settle_kept governed.kept next, .inl (settle_asked next)⟩) performed
  | rejoin j =>
    exact stops _ (fun l' next => ⟨rejoin_kept governed.kept next, .inr (rejoin_asked next)⟩) performed
  | follow j =>
    exact stops _ (fun l' next => ⟨follow_kept governed.kept next, .inr (follow_asked next)⟩) performed
  | admitTask =>
    cases performed
    unfold admitTask
    split
    · exact aside_governed governed r.contexts _
    · exact governed
  | enter =>
    simp only [perform, enter] at performed
    split at performed
    · cases performed
    · cases performed
      exact aside_governed governed r.contexts _
  | taskSettles task =>
    simp only [perform, taskSettles] at performed
    split at performed
    · cases performed
      exact aside_governed governed r.contexts _
    · cases performed
  | abort context =>
    cases performed
    exact aside_governed governed _ r.tasks
  | expire context =>
    cases performed
    exact aside_governed governed _ r.tasks

theorem step_governed (governed : Governed r) {a : Action} (stepped : step r a = some r') :
    Governed r' := by
  unfold step at stepped
  split at stepped
  · exact perform_governed governed stepped
  · cases stepped

theorem initial_governed : Governed {} where
  kept := by
    constructor <;> simp [Stopped]
  startup := ⟨rfl, rfl, rfl, rfl⟩
  attempts k inside := by cases inside
  calls n inside := by cases inside
  published k published := by cases published
  created _ := rfl
  registered c mem := by cases mem

theorem reached_governed {ok : Runtime → Action → Prop} (reached : Reached ok r) : Governed r :=
  steps_invariant Governed (fun _ _ _ governed _ stepped => step_governed governed stepped) reached
    initial_governed

end Runs

end Runtime

end Services
