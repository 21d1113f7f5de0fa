import TsServiceLib.Temporal.EndpointRegistry

/-!
The limits of a worker are those of the endpoints on its task queue, one for
activities and one for workflow tasks. They are gathered endpoint by endpoint in
the order of registration, and a limit that differs from the one gathered so far
is a conflict. Zero is the value before the first endpoint, so an endpoint
without a limit is forgotten by the next one that has a limit, but conflicts
with one that came before it.
-/
namespace TemporalConnectors
open Transitions ConfigValues ConfigParsers RuntimeConfigs OrderedMaps TemporalIdentities

structure QueuePolicy where
  maxConcurrentActivities : Int := 0
  maxConcurrentWorkflowTasks : Int := 0
  deriving DecidableEq

section Operations
variable {H : Type} (r : RuntimeConfig) (taskQueue : String)

def isServed (settings : TemporalEndpoint) (registration : EndpointRegistration H) : Bool :=
  settings.enabled && settings.taskQueue == taskQueue && registration.handler.isSome

def isActivity (settings : TemporalEndpoint) : Bool := settings.temporalExecutionType == "Activity"

/-- The limit gathered so far gives way to the one of the next endpoint. -/
def nextLimit (field : String) (gathered limit : Int) : Checked Int :=
  if gathered ≠ 0 ∧ gathered ≠ limit then fails ("Temporal Task Queue " ++ taskQueue ++ " has conflicting " ++ field)
  else .ok limit

/-- One turn of the loop of `queuePolicy`. -/
def addPolicy (policy : QueuePolicy) (registration : EndpointRegistration H) : Checked QueuePolicy := do
  let (_, settings) ← endpointConfig r registration.endpointId
  if !isServed taskQueue settings registration then return policy
  else if isActivity settings then
    let limit ← nextLimit taskQueue "maxConcurrentActivities" policy.maxConcurrentActivities settings.maxConcurrentActivities
    return { policy with maxConcurrentActivities := limit }
  else
    let limit ← nextLimit taskQueue "maxConcurrentWorkflowTasks" policy.maxConcurrentWorkflowTasks
      settings.maxConcurrentWorkflowTasks
    return { policy with maxConcurrentWorkflowTasks := limit }

def policyOf (registrations : List (EndpointRegistration H)) : Checked QueuePolicy :=
  registrations.foldlM (addPolicy r taskQueue) {}

def queuePolicy (c : TemporalConnector H) : Checked QueuePolicy := policyOf r taskQueue (c.endpoints.entries.map Prod.snd)

/-- The limit of an endpoint, if it is of this kind and served from the queue. -/
def limitOf (activity : Bool) (registration : EndpointRegistration H) : Option Int :=
  match endpointConfig r registration.endpointId with
  | .error _ => none
  | .ok (_, settings) =>
    if isServed taskQueue settings registration && isActivity settings == activity then
      some (if activity then settings.maxConcurrentActivities else settings.maxConcurrentWorkflowTasks)
    else none

def limitsOf (activity : Bool) (registrations : List (EndpointRegistration H)) : List Int :=
  registrations.filterMap (limitOf r taskQueue activity)

/-- An endpoint whose configuration is gone. -/
def Missing (registration : EndpointRegistration H) : Prop :=
  ∃ error, endpointConfig r registration.endpointId = .error error

end Operations

def Conflicting (limits : List Int) : Prop := ∃ a ∈ limits, ∃ b ∈ limits, a ≠ 0 ∧ b ≠ 0 ∧ a ≠ b

/-- An endpoint has a limit and another has none. -/
def Mixed (limits : List Int) : Prop := 0 ∈ limits ∧ ∃ a ∈ limits, a ≠ 0

/-- Both orders fail, or both give these limits. -/
def Agree (first second : Checked QueuePolicy) : Prop :=
  (∀ policy, first ≠ .ok policy) ∧ (∀ policy, second ≠ .ok policy) ∨ ∃ policy, first = .ok policy ∧ second = .ok policy

/-- The limit that is gathered from a list, `none` on a conflict. -/
def settle : Int → List Int → Option Int
  | gathered, [] => some gathered
  | gathered, limit :: rest => if gathered ≠ 0 ∧ gathered ≠ limit then none else settle limit rest

section Limits
variable {limits permuted : List Int} {gathered v w : Int}

theorem settle_some (settled : settle gathered limits = some v) :
    (v = gathered ∨ v ∈ limits) ∧ ∀ a ∈ gathered :: limits, a ≠ 0 → a = v := by
  induction limits generalizing gathered with
  | nil =>
    cases settled
    exact ⟨.inl rfl, by simp⟩
  | cons limit rest ih =>
    simp only [settle] at settled
    split at settled
    · cases settled
    · rename_i fits
      obtain ⟨among, every⟩ := ih settled
      constructor
      · rcases among with same | later
        · exact .inr (by rw [same]; exact List.mem_cons_self)
        · exact .inr (List.mem_cons_of_mem _ later)
      · intro a mem nonzero
        rcases List.mem_cons.mp mem with first | after
        · have same : a = limit := by
            rw [first] at nonzero ⊢
            by_contra other
            exact fits ⟨nonzero, other⟩
          rw [same] at nonzero ⊢
          exact every limit List.mem_cons_self nonzero
        · exact every a after nonzero

/-- Two orders of the same limits cannot settle on different ones. -/
theorem settle_unique (perm : limits.Perm permuted) (first : settle 0 limits = some v) (second : settle 0 permuted = some w) :
    v = w := by
  obtain ⟨among, every⟩ := settle_some first
  obtain ⟨among', every'⟩ := settle_some second
  by_cases zero : v = 0
  · by_cases also : w = 0
    · rw [zero, also]
    · rcases among' with same | mem
      · exact absurd same also
      · exact (every w (List.mem_cons_of_mem _ (perm.mem_iff.mpr mem)) also).symm
  · rcases among with same | mem
    · exact absurd same zero
    · exact every' v (List.mem_cons_of_mem _ (perm.mem_iff.mp mem)) zero

theorem settle_same (every : ∀ a ∈ limits, a = gathered) : settle gathered limits = some gathered := by
  induction limits with
  | nil => rfl
  | cons limit rest ih =>
    have here : limit = gathered := every limit List.mem_cons_self
    rw [settle, here, if_neg (by simp)]
    exact ih fun a mem => every a (List.mem_cons_of_mem _ mem)

theorem settle_append (zeros : ∀ a ∈ limits, a = 0) (rest : List Int) : settle 0 (limits ++ rest) = settle 0 rest := by
  induction limits with
  | nil => rfl
  | cons limit later ih =>
    have here : limit = 0 := zeros limit List.mem_cons_self
    rw [List.cons_append, settle, here, if_neg (by simp)]
    exact ih fun a mem => zeros a (List.mem_cons_of_mem _ mem)

theorem settle_zeros_first {zeros others : List Int} (nothing : ∀ a ∈ zeros, a = 0) (limited : ∀ a ∈ others, a ≠ 0)
    (united : ¬Conflicting (zeros ++ others)) : ∃ v, settle 0 (zeros ++ others) = some v := by
  rw [settle_append nothing]
  cases others with
  | nil => exact ⟨0, rfl⟩
  | cons limit rest =>
    have all : ∀ a ∈ rest, a = limit := by
      intro a mem
      by_contra other
      apply united
      exact ⟨a, by simp [mem], limit, by simp, limited a (List.mem_cons_of_mem _ mem), limited limit List.mem_cons_self, other⟩
    rw [settle, if_neg (by simp)]
    exact ⟨limit, settle_same all⟩

theorem settle_zero_after (before : gathered ≠ 0 ∨ ∃ a ∈ limits, a ≠ 0) (rest : List Int) :
    settle gathered (limits ++ 0 :: rest) = none := by
  induction limits generalizing gathered with
  | nil =>
    rcases before with limited | ⟨a, mem, _⟩
    · rw [List.nil_append, settle, if_pos ⟨limited, limited⟩]
    · cases mem
  | cons limit later ih =>
    rw [List.cons_append, settle]
    split
    · rfl
    · rename_i fits
      apply ih
      rcases before with limited | ⟨a, mem, nonzero⟩
      · left
        have same : gathered = limit := by
          by_contra other
          exact fits ⟨limited, other⟩
        rw [← same]
        exact limited
      · rcases List.mem_cons.mp mem with here | there
        · exact .inl (by rw [← here]; exact nonzero)
        · exact .inr ⟨a, there, nonzero⟩

theorem settle_conflicting (conflicting : Conflicting limits) : settle 0 limits = none := by
  cases settled : settle 0 limits with
  | none => rfl
  | some v =>
    obtain ⟨a, mem, b, also, limited, limited', differ⟩ := conflicting
    obtain ⟨_, every⟩ := settle_some settled
    have first := every a (List.mem_cons_of_mem _ mem) limited
    have second := every b (List.mem_cons_of_mem _ also) limited'
    exact absurd (first.trans second.symm) differ

theorem settle_unmixed (united : ¬Conflicting limits) (unmixed : ¬Mixed limits) : ∃ v, settle 0 limits = some v := by
  by_cases zero : 0 ∈ limits
  · have zeros : ∀ a ∈ limits, a = 0 := by
      intro a mem
      by_contra limited
      exact unmixed ⟨zero, a, mem, limited⟩
    exact ⟨0, settle_same zeros⟩
  · have limited : ∀ a ∈ limits, a ≠ 0 := by
      intro a mem same
      exact zero (by rw [← same]; exact mem)
    have none : ∀ a ∈ ([] : List Int), a = 0 := by simp
    exact settle_zeros_first none limited united

theorem conflicting_perm (perm : limits.Perm permuted) : Conflicting limits ↔ Conflicting permuted := by
  simp only [Conflicting, perm.mem_iff]

theorem mixed_perm (perm : limits.Perm permuted) : Mixed limits ↔ Mixed permuted := by
  simp only [Mixed, perm.mem_iff]

end Limits

section Policies
variable {H : Type} {r : RuntimeConfig} {taskQueue : String} {l l' : List (EndpointRegistration H)}
  {registration : EndpointRegistration H} {policy found : QueuePolicy}

/-- The loop gathers the limits of both kinds, each from its own endpoints. -/
theorem policyFrom_ok : l.foldlM (addPolicy r taskQueue) policy = .ok found ↔
    (∀ registration ∈ l, ¬Missing r registration) ∧
    settle policy.maxConcurrentActivities (limitsOf r taskQueue true l) = some found.maxConcurrentActivities ∧
    settle policy.maxConcurrentWorkflowTasks (limitsOf r taskQueue false l) = some found.maxConcurrentWorkflowTasks := by
  induction l generalizing policy with
  | nil =>
    cases policy
    cases found
    simp [limitsOf, settle, pure, Except.pure]
  | cons registration rest ih =>
    rw [List.foldlM_cons, Framing.bind_ok]
    simp only [ih, limitsOf, List.filterMap_cons, List.forall_mem_cons]
    cases configured : endpointConfig r registration.endpointId with
    | error error =>
      have missing : Missing r registration := ⟨error, configured⟩
      simp [addPolicy, configured, bind, Except.bind, missing]
    | ok pair =>
      obtain ⟨endpoint, settings⟩ := pair
      have there : ¬Missing r registration := by
        rintro ⟨error, failed⟩
        rw [configured] at failed
        cases failed
      simp only [addPolicy, limitOf, configured, bind, Except.bind, there, not_false_eq_true, true_and]
      cases served : isServed taskQueue settings registration with
      | false => simp [pure, Except.pure]
      | true =>
        cases activity : isActivity settings with
        | true =>
          by_cases conflict : policy.maxConcurrentActivities ≠ 0 ∧ policy.maxConcurrentActivities ≠ settings.maxConcurrentActivities
          · simp [nextLimit, settle, conflict, fails]
          · simp [nextLimit, settle, conflict, pure, Except.pure]
        | false =>
          by_cases conflict : policy.maxConcurrentWorkflowTasks ≠ 0 ∧
              policy.maxConcurrentWorkflowTasks ≠ settings.maxConcurrentWorkflowTasks
          · simp [nextLimit, settle, conflict, fails]
          · simp [nextLimit, settle, conflict, pure, Except.pure]

theorem policyOf_ok : policyOf r taskQueue l = .ok found ↔ (∀ registration ∈ l, ¬Missing r registration) ∧
    settle 0 (limitsOf r taskQueue true l) = some found.maxConcurrentActivities ∧
    settle 0 (limitsOf r taskQueue false l) = some found.maxConcurrentWorkflowTasks :=
  policyFrom_ok

theorem policyOf_succeeds (configured : ∀ registration ∈ l, ¬Missing r registration)
    (settled : ∀ activity, ∃ v, settle 0 (limitsOf r taskQueue activity l) = some v) :
    ∃ policy, policyOf r taskQueue l = .ok policy := by
  obtain ⟨v, activities⟩ := settled true
  obtain ⟨w, workflowTasks⟩ := settled false
  exact ⟨⟨v, w⟩, policyOf_ok.mpr ⟨configured, activities, workflowTasks⟩⟩

theorem policyOf_fails {activity : Bool} (unsettled : settle 0 (limitsOf r taskQueue activity l) = none) :
    ∀ policy, policyOf r taskQueue l ≠ .ok policy := by
  intro policy succeeds
  obtain ⟨_, activities, workflowTasks⟩ := policyOf_ok.mp succeeds
  cases activity with
  | true =>
    rw [unsettled] at activities
    cases activities
  | false =>
    rw [unsettled] at workflowTasks
    cases workflowTasks

theorem limitsOf_perm (perm : l.Perm l') (activity : Bool) :
    (limitsOf r taskQueue activity l).Perm (limitsOf r taskQueue activity l') :=
  perm.filterMap _

theorem agree_of_ok (perm : l.Perm l') (first : policyOf r taskQueue l = .ok policy) (second : policyOf r taskQueue l' = .ok found) :
    policy = found := by
  obtain ⟨_, activities, workflowTasks⟩ := policyOf_ok.mp first
  obtain ⟨_, activities', workflowTasks'⟩ := policyOf_ok.mp second
  have a := settle_unique (limitsOf_perm perm true) activities activities'
  have b := settle_unique (limitsOf_perm perm false) workflowTasks workflowTasks'
  cases policy
  cases found
  simp only at a b
  rw [a, b]

/-- The endpoint is counted, and has no limit. -/
def isUnlimited (r : RuntimeConfig) (taskQueue : String) (registration : EndpointRegistration H) : Bool :=
  limitOf r taskQueue true registration == some 0 || limitOf r taskQueue false registration == some 0

theorem limitOf_kind {activity : Bool} {v w : Int} (one : limitOf r taskQueue activity registration = some v)
    (other : limitOf r taskQueue (!activity) registration = some w) : False := by
  unfold limitOf at one other
  split at one
  · cases one
  · rename_i endpoint settings configured
    rw [configured] at other
    cases activity <;> cases isActivity settings <;> simp_all

theorem unlimited_zero {activity : Bool} {v : Int} (unlimited : isUnlimited r taskQueue registration = true)
    (limit : limitOf r taskQueue activity registration = some v) : v = 0 := by
  simp only [isUnlimited, Bool.or_eq_true, beq_iff_eq] at unlimited
  cases activity with
  | true =>
    rcases unlimited with same | other
    · rw [limit] at same
      exact Option.some.inj same
    · exact (limitOf_kind limit other).elim
  | false =>
    rcases unlimited with other | same
    · exact (limitOf_kind other limit).elim
    · rw [limit] at same
      exact Option.some.inj same

theorem limited_nonzero {activity : Bool} {v : Int} (limited : isUnlimited r taskQueue registration = false)
    (limit : limitOf r taskQueue activity registration = some v) : v ≠ 0 := by
  intro zero
  rw [zero] at limit
  cases activity <;> simp [isUnlimited, limit] at limited

/-- The endpoints without a limit, and the others. -/
def unlimitedOf (r : RuntimeConfig) (taskQueue : String) (l : List (EndpointRegistration H)) :=
  l.filter (isUnlimited r taskQueue)

def limitedOf (r : RuntimeConfig) (taskQueue : String) (l : List (EndpointRegistration H)) :=
  l.filter fun registration => !isUnlimited r taskQueue registration

theorem zeros_unlimited (activity : Bool) : ∀ a ∈ limitsOf r taskQueue activity (unlimitedOf r taskQueue l), a = 0 := by
  intro a mem
  obtain ⟨registration, listed, limit⟩ := List.mem_filterMap.mp mem
  exact unlimited_zero (List.mem_filter.mp listed).2 limit

theorem nonzeros_limited (activity : Bool) : ∀ a ∈ limitsOf r taskQueue activity (limitedOf r taskQueue l), a ≠ 0 := by
  intro a mem
  obtain ⟨registration, listed, limit⟩ := List.mem_filterMap.mp mem
  have limited := (List.mem_filter.mp listed).2
  exact limited_nonzero (by simpa using limited) limit

theorem split_perm : l.Perm (unlimitedOf r taskQueue l ++ limitedOf r taskQueue l) :=
  (List.filter_append_perm (isUnlimited r taskQueue) l).symm

theorem limitsOf_append (activity : Bool) (first second : List (EndpointRegistration H)) :
    limitsOf r taskQueue activity (first ++ second) = limitsOf r taskQueue activity first ++ limitsOf r taskQueue activity second :=
  List.filterMap_append

theorem agree_of_missing (perm : l.Perm l') (missing : ∃ registration ∈ l, Missing r registration) :
    Agree (policyOf r taskQueue l) (policyOf r taskQueue l') := by
  obtain ⟨registration, listed, gone⟩ := missing
  left
  constructor
  · exact fun policy succeeds => (policyOf_ok.mp succeeds).1 registration listed gone
  · exact fun policy succeeds => (policyOf_ok.mp succeeds).1 registration (perm.mem_iff.mp listed) gone

theorem agree_of_conflicting (perm : l.Perm l') (conflicting : ∃ activity, Conflicting (limitsOf r taskQueue activity l)) :
    Agree (policyOf r taskQueue l) (policyOf r taskQueue l') := by
  obtain ⟨activity, here⟩ := conflicting
  have there := (conflicting_perm (limitsOf_perm perm activity)).mp here
  left
  constructor
  · exact policyOf_fails (settle_conflicting here)
  · exact policyOf_fails (settle_conflicting there)

theorem mem_split {activity : Bool} {v : Int} (mem : v ∈ limitsOf r taskQueue activity l) :
    v ∈ limitsOf r taskQueue activity (unlimitedOf r taskQueue l) ∨ v ∈ limitsOf r taskQueue activity (limitedOf r taskQueue l) := by
  rw [← List.mem_append, ← limitsOf_append]
  exact (limitsOf_perm split_perm activity).mem_iff.mp mem

/-- With the limited endpoints first, one without a limit is a conflict. -/
theorem settle_turned {activity : Bool} {a : Int} (zero : 0 ∈ limitsOf r taskQueue activity l)
    (mem : a ∈ limitsOf r taskQueue activity l) (limited : a ≠ 0) :
    settle 0 (limitsOf r taskQueue activity (limitedOf r taskQueue l ++ unlimitedOf r taskQueue l)) = none := by
  have without : 0 ∈ limitsOf r taskQueue activity (unlimitedOf r taskQueue l) := by
    rcases mem_split zero with here | there
    · exact here
    · exact absurd rfl (nonzeros_limited activity 0 there)
  have with' : a ∈ limitsOf r taskQueue activity (limitedOf r taskQueue l) := by
    rcases mem_split mem with here | there
    · exact absurd (zeros_unlimited activity a here) limited
    · exact there
  obtain ⟨before, after, split⟩ := List.append_of_mem without
  rw [limitsOf_append, split, ← List.append_assoc]
  exact settle_zero_after (.inr ⟨a, List.mem_append_left before with', limited⟩) after

end Policies

/- The policy of a task queue is the same for every order of its endpoints exactly if a
   configuration is missing, or two limits exclude each other, or no kind has both an
   endpoint with a limit and one without. -/
theorem queuePolicy_order {H : Type} (r : RuntimeConfig) (taskQueue : String) (l : List (EndpointRegistration H)) :
    (∀ l', l.Perm l' → Agree (policyOf r taskQueue l) (policyOf r taskQueue l')) ↔
      (∃ registration ∈ l, Missing r registration) ∨ (∃ activity, Conflicting (limitsOf r taskQueue activity l)) ∨
        ∀ activity, ¬Mixed (limitsOf r taskQueue activity l) := by
  constructor
  · intro agrees
    by_contra none
    simp only [not_or, not_exists, not_and, not_forall, not_not] at none
    obtain ⟨configured, united, activity, zero, a, mem, limited⟩ := none
    have perm : l.Perm (unlimitedOf r taskQueue l ++ limitedOf r taskQueue l) := split_perm
    have turned : l.Perm (limitedOf r taskQueue l ++ unlimitedOf r taskQueue l) := perm.trans List.perm_append_comm
    obtain ⟨policy, succeeds⟩ : ∃ policy, policyOf r taskQueue (unlimitedOf r taskQueue l ++ limitedOf r taskQueue l) = .ok policy := by
      apply policyOf_succeeds
      · intro registration listed
        exact configured registration (perm.mem_iff.mpr listed)
      · intro kind
        rw [limitsOf_append]
        apply settle_zeros_first (zeros_unlimited kind) (nonzeros_limited kind)
        rw [← limitsOf_append, ← conflicting_perm (limitsOf_perm perm kind)]
        exact united kind
    have fails : ∀ policy, policyOf r taskQueue (limitedOf r taskQueue l ++ unlimitedOf r taskQueue l) ≠ .ok policy := by
      exact policyOf_fails (settle_turned zero mem limited)
    rcases agrees _ perm with ⟨_, never⟩ | ⟨one, first, _⟩
    · exact never policy succeeds
    · rcases agrees _ turned with ⟨never, _⟩ | ⟨other, _, second⟩
      · exact never one first
      · exact fails other second
  · intro condition l' perm
    by_cases missing : ∃ registration ∈ l, Missing r registration
    · exact agree_of_missing perm missing
    · by_cases conflicting : ∃ activity, Conflicting (limitsOf r taskQueue activity l)
      · exact agree_of_conflicting perm conflicting
      · have unmixed := (condition.resolve_left missing).resolve_left conflicting
        simp only [not_exists, not_and] at missing conflicting
        obtain ⟨policy, first⟩ := policyOf_succeeds missing fun activity => settle_unmixed (conflicting activity) (unmixed activity)
        obtain ⟨found, second⟩ : ∃ found, policyOf r taskQueue l' = .ok found := by
          apply policyOf_succeeds
          · exact fun registration listed => missing registration (perm.mem_iff.mpr listed)
          · intro activity
            have moved : (limitsOf r taskQueue activity l).Perm (limitsOf r taskQueue activity l') :=
              limitsOf_perm perm activity
            apply settle_unmixed
            · rw [← conflicting_perm moved]
              exact conflicting activity
            · rw [← mixed_perm moved]
              exact unmixed activity
        rw [← agree_of_ok perm first second] at second
        exact .inr ⟨policy, first, second⟩

/-- Two endpoints on one queue, without a limit and with one. -/
def limitedConfig : CanonicalConfig :=
  { orderConfig "" "" with
    endpoints := [
      { id := 10, name := "Orders", idDataConnector := 1, kind := .temporal orderSettings },
      { id := 11, name := "Refunds", idDataConnector := 1
        kind := .temporal { orderSettings with maxConcurrentActivities := 5 } }] }

/-- The endpoints of the connector, registered in this order, and the policy of their queue. -/
def registeredPolicy (order : List Int) : Option (List (EndpointRegistration String) × Checked QueuePolicy) :=
  (make limitedConfig).toOption.bind fun r => (makeConnector r 1).toOption.bind fun made =>
    (exec (step asciiTables r) made (order.map fun id => .registerEndpoint id "handler")).map fun c =>
      (c.endpoints.entries.map Prod.snd, queuePolicy r "orders" c)

/-- With the endpoint without a limit registered first the queue has the limit 5; with
    it registered last there is a conflict. -/
theorem queuePolicy_unordered :
    ∃ first second, registeredPolicy [10, 11] = some (first, .ok ⟨5, 0⟩) ∧
      registeredPolicy [11, 10] = some (second, fails "Temporal Task Queue orders has conflicting maxConcurrentActivities") ∧
      first.Perm second ∧
      ¬Agree (.ok ⟨5, 0⟩) (fails "Temporal Task Queue orders has conflicting maxConcurrentActivities") := by
  refine ⟨[⟨10, "orders.endpoint.orders.v1", "orders.endpoint.orders.workflow.v1", some "handler"⟩,
      ⟨11, "orders.endpoint.refunds.v1", "orders.endpoint.refunds.workflow.v1", some "handler"⟩],
    [⟨11, "orders.endpoint.refunds.v1", "orders.endpoint.refunds.workflow.v1", some "handler"⟩,
      ⟨10, "orders.endpoint.orders.v1", "orders.endpoint.orders.workflow.v1", some "handler"⟩], ?_, ?_, ?_, ?_⟩
  · decide +kernel
  · decide +kernel
  · exact List.Perm.swap _ _ _
  · rintro (⟨never, _⟩ | ⟨policy, _, also⟩)
    · exact never _ rfl
    · cases also

end TemporalConnectors
