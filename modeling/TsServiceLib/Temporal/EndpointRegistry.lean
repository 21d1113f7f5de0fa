import TsServiceLib.Library.Transitions
import TsServiceLib.Config.RuntimeConfig
import TsServiceLib.Temporal.NameWords

/-!
The endpoints of a Temporal connector: they are registered by id, and when a
worker is made for a task queue their handlers are put under the activity types
that their names come to. The configuration keeps the names apart, not what
they come to.
-/
namespace TemporalConnectors
open Transitions ConfigValues ConfigParsers RuntimeConfigs OrderedMaps TemporalIdentities

structure EndpointRegistration (H : Type) where
  endpointId : Int
  activityType : String
  workflowType : String
  handler : Option H
  deriving DecidableEq

structure TemporalConnector (H : Type) where
  id : Int
  name : String
  endpoints : OrderedMap Int (EndpointRegistration H) := OrderedMap.empty
  started : Bool := false

/-- The activities of each task queue: under a type, the endpoint and its handler. -/
abbrev Queues (H : Type) := OrderedMap String (OrderedMap String (Int × H))

section Operations
variable {H : Type} (t : CaseTables) (r : RuntimeConfig)

def makeConnector (connectorId : Int) : Checked (TemporalConnector H) :=
  match r.connectors.byId.get connectorId with
  | some { name, kind := .temporal _, .. } => .ok { id := connectorId, name }
  | _ => fails ("data connector " ++ toString connectorId ++ " is not Temporal")

def endpointConfig (endpointId : Int) : Checked (EndpointConfig × TemporalEndpoint) :=
  match r.endpoints.byId.get endpointId with
  | some endpoint =>
    match endpoint.kind with
    | .temporal settings => .ok (endpoint, settings)
    | _ => fails ("Temporal endpoint configuration " ++ toString endpointId ++ " not found")
  | none => fails ("Temporal endpoint configuration " ++ toString endpointId ++ " not found")

def endpointRegistration (c : TemporalConnector H) (endpointId : Int) : Checked (EndpointRegistration H) := do
  let (config, _) ← endpointConfig r endpointId
  if config.idDataConnector ≠ c.id then
    fails ("endpoint " ++ toString endpointId ++ " does not belong to connector " ++ c.name)
  else
    return { endpointId
             activityType := temporalEndpointActivityType t c.name config.name
             workflowType := temporalDirectWorkflowType t c.name config.name
             handler := none }

/-- The registration that there is, or a new one. -/
def registrationOf (c : TemporalConnector H) (endpointId : Int) : Checked (EndpointRegistration H) :=
  match c.endpoints.get endpointId with
  | some registration => .ok registration
  | none => endpointRegistration t r c endpointId

def registerEndpoint (c : TemporalConnector H) (endpointId : Int) (handler : H) : Checked (TemporalConnector H) :=
  if c.started then fails "cannot register endpoint after Temporal start"
  else do
    let registration ← registrationOf t r c endpointId
    if registration.handler.isSome then fails ("Temporal endpoint " ++ toString endpointId ++ " is already registered")
    else return { c with endpoints := c.endpoints.set endpointId { registration with handler := some handler } }

def registerEndpointSubmission (c : TemporalConnector H) (endpointId : Int) : Checked (TemporalConnector H) :=
  if c.endpoints.has endpointId then .ok c
  else do
    let registration ← endpointRegistration t r c endpointId
    return { c with endpoints := c.endpoints.set endpointId registration }

def putActivity (queues : Queues H) (registration : EndpointRegistration H) (settings : TemporalEndpoint) : Queues H :=
  match settings.enabled, registration.handler with
  | true, some handler =>
    let opened := if queues.has settings.taskQueue then queues else queues.set settings.taskQueue OrderedMap.empty
    if settings.temporalExecutionType = "Activity" then
      let activities := (opened.get settings.taskQueue).getD OrderedMap.empty
      opened.set settings.taskQueue (activities.set registration.activityType (registration.endpointId, handler))
    else opened
  | _, _ => queues

/-- One turn of the loop of `queueActivities`. -/
def addActivity (queues : Queues H) (registration : EndpointRegistration H) : Checked (Queues H) := do
  let (_, settings) ← endpointConfig r registration.endpointId
  return putActivity queues registration settings

def queueActivities (c : TemporalConnector H) : Checked (Queues H) :=
  (c.endpoints.entries.map Prod.snd).foldlM (addActivity r) OrderedMap.empty

inductive Action (H : Type) where
  | registerEndpoint (endpointId : Int) (handler : H)
  | registerEndpointSubmission (endpointId : Int)
  | start
  | stop

/-- A call that throws leaves the connector as it was. -/
def step (c : TemporalConnector H) : Action H → Option (TemporalConnector H)
  | .registerEndpoint endpointId handler => some ((registerEndpoint t r c endpointId handler).toOption.getD c)
  | .registerEndpointSubmission endpointId => some ((registerEndpointSubmission t r c endpointId).toOption.getD c)
  | .start => some { c with started := true }
  | .stop => some { c with started := false }

/-- An enabled endpoint that is registered with a handler. -/
structure Served (H : Type) where
  id : Int
  registration : EndpointRegistration H
  endpoint : EndpointConfig
  settings : TemporalEndpoint
  handler : H

structure Serves (c : TemporalConnector H) (s : Served H) : Prop where
  registered : c.endpoints.get s.id = some s.registration
  configured : endpointConfig r s.id = .ok (s.endpoint, s.settings)
  handled : s.registration.handler = some s.handler
  enabled : s.settings.enabled = true

/-- Different endpoints have different types, and different ids for one message. -/
def Distinct (c : TemporalConnector H) : Prop :=
  ∀ s other : Served H, Serves r c s → Serves r c other → s.id ≠ other.id →
    s.registration.activityType ≠ other.registration.activityType ∧
    s.registration.workflowType ≠ other.registration.workflowType ∧
    ∀ messageId, temporalEndpointWorkflowId t c.name s.endpoint.name messageId ≠
      temporalEndpointWorkflowId t c.name other.endpoint.name messageId

def lookup (queues : Queues H) (taskQueue activityType : String) : Option (Int × H) :=
  (queues.get taskQueue).bind fun activities => activities.get activityType

/-- The workers get the handler of every endpoint that is an activity. -/
def Keeps (c : TemporalConnector H) : Prop :=
  ∃ queues, queueActivities r c = .ok queues ∧ ∀ s : Served H, Serves r c s →
    s.settings.temporalExecutionType = "Activity" →
    lookup queues s.settings.taskQueue s.registration.activityType = some (s.id, s.handler)

/-- A registration is for the endpoint with this id and has its types. -/
def IsFor (connectorName : String) (id : Int) (registration : EndpointRegistration H) : Prop :=
  registration.endpointId = id ∧ ∃ endpoint settings, endpointConfig r id = .ok (endpoint, settings) ∧
    registration.activityType = temporalEndpointActivityType t connectorName endpoint.name ∧
    registration.workflowType = temporalDirectWorkflowType t connectorName endpoint.name

def Registered (c : TemporalConnector H) : Prop :=
  ∀ id registration, c.endpoints.get id = some registration → IsFor t r c.name id registration

/-- The loop puts the handler of this registration under the type. -/
def Writes (registration : EndpointRegistration H) (taskQueue activityType : String) : Prop :=
  ∃ endpoint settings handler, endpointConfig r registration.endpointId = .ok (endpoint, settings) ∧
    settings.enabled = true ∧ registration.handler = some handler ∧ settings.temporalExecutionType = "Activity" ∧
    settings.taskQueue = taskQueue ∧ registration.activityType = activityType

end Operations

section Laws
variable {H : Type} {t : CaseTables} {r : RuntimeConfig} {c d : TemporalConnector H}

theorem endpointRegistration_isFor {id : Int} {registration : EndpointRegistration H}
    (made : endpointRegistration t r c id = .ok registration) : IsFor t r c.name id registration := by
  obtain ⟨⟨endpoint, settings⟩, configured, rest⟩ := Framing.bind_ok.mp made
  simp only at rest
  split at rest
  · cases rest
  · cases rest
    exact ⟨rfl, endpoint, settings, configured, rfl, rfl⟩

theorem registrationOf_isFor (registered : Registered t r c) {id : Int} {registration : EndpointRegistration H}
    (made : registrationOf t r c id = .ok registration) : IsFor t r c.name id registration := by
  unfold registrationOf at made
  split at made
  · rename_i found
    cases made
    exact registered id _ found
  · exact endpointRegistration_isFor made

theorem set_registered (registered : Registered t r c) {id : Int} {registration : EndpointRegistration H}
    (own : IsFor t r c.name id registration) : Registered t r { c with endpoints := c.endpoints.set id registration } := by
  intro other found here
  simp only [OrderedMap.get_set] at here
  split at here
  · rename_i same
    cases here
    rw [same]
    exact own
  · exact registered other found here

theorem step_registered {a : Action H} (registered : Registered t r c) (next : step t r c a = some d) : Registered t r d := by
  cases a with
  | registerEndpoint id handler =>
    cases next
    cases called : registerEndpoint t r c id handler with
    | error e => exact registered
    | ok e =>
      unfold registerEndpoint at called
      split at called
      · cases called
      · obtain ⟨registration, made, rest⟩ := Framing.bind_ok.mp called
        split at rest
        · cases rest
        · cases rest
          obtain ⟨own, types⟩ := registrationOf_isFor registered made
          exact set_registered registered ⟨own, types⟩
  | registerEndpointSubmission id =>
    cases next
    cases called : registerEndpointSubmission t r c id with
    | error e => exact registered
    | ok e =>
      unfold registerEndpointSubmission at called
      split at called
      · cases called
        exact registered
      · obtain ⟨registration, made, rest⟩ := Framing.bind_ok.mp called
        cases rest
        exact set_registered registered (endpointRegistration_isFor made)
  | start =>
    cases next
    exact registered
  | stop =>
    cases next
    exact registered

theorem lookup_set (queues : Queues H) (taskQueue : String) (activities : OrderedMap String (Int × H)) (q a : String) :
    lookup (queues.set taskQueue activities) q a = if q = taskQueue then activities.get a else lookup queues q a := by
  unfold lookup
  rw [OrderedMap.get_set]
  split
  · rfl
  · rfl

theorem lookup_opened (queues : Queues H) (taskQueue q a : String) :
    lookup (if queues.has taskQueue then queues else queues.set taskQueue OrderedMap.empty) q a = lookup queues q a := by
  split
  · rfl
  · rename_i closed
    rw [lookup_set]
    split
    · rename_i same
      subst same
      have missing : queues.get q = none := by simpa [OrderedMap.has] using closed
      rw [lookup, missing]
      rfl
    · rfl

variable {queues next : Queues H} {registration : EndpointRegistration H} {q a : String}

theorem putActivity_keeps {settings : TemporalEndpoint}
    (other : ∀ handler, settings.enabled = true → registration.handler = some handler →
      settings.temporalExecutionType = "Activity" → settings.taskQueue = q → registration.activityType ≠ a) :
    lookup (putActivity queues registration settings) q a = lookup queues q a := by
  unfold putActivity
  split
  · rename_i handler enabled handled
    simp only
    split
    · rename_i activity
      rw [lookup_set]
      split
      · rename_i same
        subst same
        rw [OrderedMap.get_set, if_neg (other handler enabled handled activity rfl).symm, ← lookup_opened queues settings.taskQueue]
        unfold lookup
        cases OrderedMap.get _ settings.taskQueue <;> rfl
      · exact lookup_opened queues settings.taskQueue q a
    · exact lookup_opened queues settings.taskQueue q a
  · rfl

theorem putActivity_writes {settings : TemporalEndpoint} {handler : H} (enabled : settings.enabled = true)
    (handled : registration.handler = some handler) (activity : settings.temporalExecutionType = "Activity") :
    lookup (putActivity queues registration settings) settings.taskQueue registration.activityType =
      some (registration.endpointId, handler) := by
  unfold putActivity
  rw [enabled, handled]
  simp only
  rw [if_pos activity, lookup_set, if_pos rfl, OrderedMap.get_set, if_pos rfl]

/-- One turn: it fails only for an endpoint that is not configured, it writes
    its own handler and leaves every other entry. -/
theorem addActivity_spec {endpoint : EndpointConfig} {settings : TemporalEndpoint}
    (configured : endpointConfig r registration.endpointId = .ok (endpoint, settings)) (queues : Queues H) :
    addActivity r queues registration = .ok (putActivity queues registration settings) ∧
      ∀ q a, ¬Writes r registration q a → lookup (putActivity queues registration settings) q a = lookup queues q a := by
  constructor
  · exact Framing.bind_ok.mpr ⟨(endpoint, settings), configured, rfl⟩
  · intro q a other
    apply putActivity_keeps
    intro handler enabled handled activity queue type
    exact other ⟨endpoint, settings, handler, configured, enabled, handled, activity, queue, type⟩

/-- The loop comes to its end and keeps what none of its turns writes. -/
theorem loop_keeps {registrations : List (EndpointRegistration H)}
    (configured : ∀ registration ∈ registrations, ∃ pair, endpointConfig r registration.endpointId = .ok pair)
    (queues : Queues H) : ∃ next, registrations.foldlM (addActivity r) queues = .ok next ∧
      ∀ q a, (∀ registration ∈ registrations, ¬Writes r registration q a) → lookup next q a = lookup queues q a := by
  induction registrations generalizing queues with
  | nil => exact ⟨queues, rfl, fun _ _ _ => rfl⟩
  | cons registration rest ih =>
    obtain ⟨⟨endpoint, settings⟩, here⟩ := configured registration List.mem_cons_self
    obtain ⟨ran, kept⟩ := addActivity_spec here queues
    obtain ⟨next, looped, later⟩ := ih (fun other mem => configured other (List.mem_cons_of_mem registration mem)) _
    refine ⟨next, by rw [List.foldlM_cons]; exact Framing.bind_ok.mpr ⟨_, ran, looped⟩, ?_⟩
    intro q a untouched
    rw [later q a fun other mem => untouched other (List.mem_cons_of_mem registration mem)]
    exact kept q a (untouched registration List.mem_cons_self)

/-- A handler that no later turn overwrites is there in the end. -/
theorem loop_writes {before after : List (EndpointRegistration H)} {endpoint : EndpointConfig} {settings : TemporalEndpoint}
    {handler : H} (looped : (before ++ registration :: after).foldlM (addActivity r) queues = .ok next)
    (here : endpointConfig r registration.endpointId = .ok (endpoint, settings)) (enabled : settings.enabled = true)
    (handled : registration.handler = some handler) (activity : settings.temporalExecutionType = "Activity")
    (configured : ∀ registration ∈ after, ∃ pair, endpointConfig r registration.endpointId = .ok pair)
    (alone : ∀ other ∈ after, ¬Writes r other settings.taskQueue registration.activityType) :
    lookup next settings.taskQueue registration.activityType = some (registration.endpointId, handler) := by
  rw [List.foldlM_append] at looped
  obtain ⟨first, _, rest⟩ := Framing.bind_ok.mp looped
  rw [List.foldlM_cons] at rest
  obtain ⟨second, ran, last⟩ := Framing.bind_ok.mp rest
  rw [(addActivity_spec here first).1] at ran
  cases ran
  obtain ⟨final, finished, kept⟩ := loop_keeps configured (putActivity first registration settings)
  rw [finished] at last
  cases last
  rw [kept _ _ alone]
  exact putActivity_writes enabled handled activity

theorem makeConnector_registered {connectorId : Int} (made : makeConnector r connectorId = .ok c) : Registered t r c := by
  unfold makeConnector at made
  split at made
  · cases made
    intro id registration found
    cases found
  · cases made

theorem types_differ (lawful : t.Lawful) (registered : Registered t r c) {s other : Served H} (serves : Serves r c s)
    (serving : Serves r c other) (apart : ¬SameWords t s.endpoint.name other.endpoint.name) :
    s.registration.activityType ≠ other.registration.activityType ∧
    s.registration.workflowType ≠ other.registration.workflowType ∧
    ∀ messageId, temporalEndpointWorkflowId t c.name s.endpoint.name messageId ≠
      temporalEndpointWorkflowId t c.name other.endpoint.name messageId := by
  have names : temporalIdentityName t s.endpoint.name ≠ temporalIdentityName t other.endpoint.name :=
    fun same => apart ((temporalIdentityName_eq_iff lawful _ _).mp same)
  obtain ⟨_, e, settings, configured, activity, workflow⟩ := registered s.id _ serves.registered
  obtain ⟨_, e', settings', configured', activity', workflow'⟩ := registered other.id _ serving.registered
  rw [serves.configured] at configured
  rw [serving.configured] at configured'
  cases configured
  cases configured'
  refine ⟨?_, ?_, ?_⟩
  · intro same
    rw [activity, activity'] at same
    simp only [temporalEndpointActivityType, String.append_left_inj, String.append_right_inj] at same
    exact names same
  · intro same
    rw [workflow, workflow'] at same
    simp only [temporalDirectWorkflowType, String.append_left_inj, String.append_right_inj] at same
    exact names same
  · intro messageId same
    simp only [temporalEndpointWorkflowId, String.append_left_inj, String.append_right_inj] at same
    exact names same

theorem keeps_of_distinct (registered : Registered t r c) (distinct : Distinct t r c) : Keeps r c := by
  have configured : ∀ e ∈ c.endpoints.entries, ∃ pair, endpointConfig r e.2.endpointId = .ok pair := by
    intro e mem
    obtain ⟨own, endpoint, settings, found, _⟩ := registered e.1 e.2 ((OrderedMap.get_eq_some_iff _ _ _).mpr mem)
    exact ⟨(endpoint, settings), by rw [own]; exact found⟩
  have all : ∀ registration ∈ c.endpoints.entries.map Prod.snd, ∃ pair, endpointConfig r registration.endpointId = .ok pair := by
    intro registration mem
    obtain ⟨e, here, rfl⟩ := List.mem_map.mp mem
    exact configured e here
  obtain ⟨queues, looped, _⟩ := loop_keeps all OrderedMap.empty
  refine ⟨queues, looped, ?_⟩
  intro s serves activity
  have mem := (OrderedMap.get_eq_some_iff _ _ _).mp serves.registered
  obtain ⟨before, after, split⟩ := List.append_of_mem mem
  obtain ⟨own, _⟩ := registered s.id _ serves.registered
  have here : endpointConfig r s.registration.endpointId = .ok (s.endpoint, s.settings) := by
    rw [own]
    exact serves.configured
  rw [split, List.map_append, List.map_cons] at looped
  have written := loop_writes looped here serves.enabled serves.handled activity ?_ ?_
  · rw [own] at written
    exact written
  · intro registration later
    obtain ⟨e, inside, rfl⟩ := List.mem_map.mp later
    exact configured e (by rw [split]; exact List.mem_append_right _ (List.mem_cons_of_mem _ inside))
  · intro registration later writes
    obtain ⟨e, inside, rfl⟩ := List.mem_map.mp later
    obtain ⟨endpoint, settings, handler, found, enabled, handled, _, _, same⟩ := writes
    have listed : e ∈ c.endpoints.entries := by
      rw [split]
      exact List.mem_append_right _ (List.mem_cons_of_mem _ inside)
    have stands := (OrderedMap.get_eq_some_iff c.endpoints e.1 e.2).mpr listed
    obtain ⟨id, _⟩ := registered e.1 e.2 stands
    rw [id] at found
    have others : s.id ≠ e.1 := by
      have keys := c.endpoints.nodup
      rw [split, List.map_append, List.map_cons, List.nodup_append] at keys
      obtain ⟨_, tail, _⟩ := keys
      intro equal
      exact (List.nodup_cons.mp tail).1 (List.mem_map.mpr ⟨e, inside, equal.symm⟩)
    exact (distinct s ⟨e.1, e.2, endpoint, settings, handler⟩ serves ⟨stands, found, handled, enabled⟩ others).1 same.symm

end Laws

/- The endpoints of a connector have types and ids of their own, and keep their
   handlers, exactly if no two of them have names with the same words up to case. -/
theorem identities_distinct {H : Type} {t : CaseTables} {r : RuntimeConfig} {connectorId : Int} {made c : TemporalConnector H}
    (lawful : t.Lawful) (makes : makeConnector r connectorId = .ok made) (run : Steps (step t r) Any made c) :
    (Distinct t r c ∧ Keeps r c) ↔ ∀ s other : Served H, Serves r c s → Serves r c other → s.id ≠ other.id →
      ¬SameWords t s.endpoint.name other.endpoint.name := by
  have registered : Registered t r c :=
    steps_invariant (Registered t r) (fun _ _ _ held _ next => step_registered held next) run (makeConnector_registered makes)
  constructor
  · rintro ⟨distinct, _⟩ s other serves serving differ same
    have names := (temporalIdentityName_eq_iff lawful s.endpoint.name other.endpoint.name).mpr same
    have ids := (distinct s other serves serving differ).2.2 ""
    simp only [temporalEndpointWorkflowId, names] at ids
    exact ids rfl
  · intro apart
    have distinct : Distinct t r c := by
      intro s other serves serving differ
      exact types_differ lawful registered serves serving (apart s other serves serving differ)
    exact ⟨distinct, keeps_of_distinct registered distinct⟩

def orderSettings : TemporalEndpoint where
  enabled := true
  taskQueue := "orders"
  temporalExecutionType := "Activity"
  maxConcurrentActivities := 0
  maxConcurrentWorkflowTasks := 0
  schedule := ""
  scheduleId := ""
  timezone := "UTC"
  activityStartToCloseTimeout := 1000
  maximumAttempts := 1

def orderEndpoint (id : Int) (name : String) : EndpointConfig :=
  { id, name, idDataConnector := 1, kind := .temporal orderSettings }

/-- A connector with two endpoints on one task queue. -/
def orderConfig (first second : String) : CanonicalConfig :=
  { services := [], streams := [], pools := [], links := [], modules := [], types := []
    dataConnectors := [
      { id := 1, name := "Orders"
        kind := .temporal
          { address := "localhost:7233", namespaceName := "default", tlsEnabled := false, tlsServerName := ""
            tlsCaFile := "", tlsCertFile := "", tlsKeyFile := "" } }]
    endpoints := [orderEndpoint 10 first, orderEndpoint 11 second] }

/-- Both endpoints are registered with a handler, and the connector is started. -/
def bothRegistered (first second : String) : Option (RuntimeConfig × TemporalConnector String) :=
  (make (orderConfig first second)).toOption.bind fun r => (makeConnector r 1).toOption.bind fun made =>
    (exec (step asciiTables r) made [.registerEndpoint 10 "first", .registerEndpoint 11 "second", .start]).map (r, ·)

theorem bothRegistered_run {first second : String} {r : RuntimeConfig} {c : TemporalConnector String}
    (ran : bothRegistered first second = some (r, c)) : make (orderConfig first second) = .ok r ∧
      ∃ made, makeConnector r 1 = .ok made ∧ Steps (step asciiTables r) Any made c := by
  obtain ⟨s, built, rest⟩ := Option.bind_eq_some_iff.mp ran
  obtain ⟨made, makes, rest⟩ := Option.bind_eq_some_iff.mp rest
  obtain ⟨d, run, same⟩ := Option.map_eq_some_iff.mp rest
  obtain ⟨rfl, rfl⟩ := Prod.mk.inj same
  exact ⟨ok_of_toOption built, made, ok_of_toOption makes, exec_steps run⟩

theorem identities_distinct_orders :
    ∃ (r : RuntimeConfig) (c : TemporalConnector String), make (orderConfig "Order Created" "Order Shipped") = .ok r ∧
      c.endpoints.keys = [10, 11] ∧ Distinct asciiTables r c ∧ Keeps r c := by
  have runs : (bothRegistered "Order Created" "Order Shipped").map (fun (r, c) =>
      (c.endpoints.keys, (endpointConfig r 10).toOption, (endpointConfig r 11).toOption)) = some ([10, 11],
      some (orderEndpoint 10 "Order Created", orderSettings), some (orderEndpoint 11 "Order Shipped", orderSettings)) := by
    decide +kernel
  obtain ⟨⟨r, c⟩, ran, facts⟩ := Option.map_eq_some_iff.mp runs
  obtain ⟨keys, endpoints⟩ := Prod.mk.inj facts
  obtain ⟨created, shipped⟩ := Prod.mk.inj endpoints
  obtain ⟨built, made, makes, run⟩ := bothRegistered_run ran
  refine ⟨r, c, built, keys, (identities_distinct asciiTables_lawful makes run).mpr ?_⟩
  have known : ∀ s : Served String, Serves r c s → (s.id = 10 ∧ s.endpoint.name = "Order Created") ∨
      (s.id = 11 ∧ s.endpoint.name = "Order Shipped") := by
    intro s serves
    have listed : s.id ∈ c.endpoints.keys := List.mem_map.mpr ⟨_, (OrderedMap.get_eq_some_iff _ _ _).mp serves.registered, rfl⟩
    rw [keys] at listed
    have configured := serves.configured
    rcases List.mem_cons.mp listed with here | there
    · rw [here, ok_of_toOption created] at configured
      have same := (Prod.mk.inj (Except.ok.inj configured)).1
      exact .inl ⟨here, by rw [← same]; rfl⟩
    · have here := List.mem_singleton.mp there
      rw [here, ok_of_toOption shipped] at configured
      have same := (Prod.mk.inj (Except.ok.inj configured)).1
      exact .inr ⟨here, by rw [← same]; rfl⟩
  intro s other serves serving differ
  rcases known s serves with ⟨id, name⟩ | ⟨id, name⟩
  · rcases known other serving with ⟨id', name'⟩ | ⟨id', name'⟩
    · exact absurd (id.trans id'.symm) differ
    · rw [name, name']
      decide +kernel
  · rcases known other serving with ⟨id', name'⟩ | ⟨id', name'⟩
    · rw [name, name']
      decide +kernel
    · exact absurd (id.trans id'.symm) differ

/-- Two names that the configuration keeps apart come to one activity type, and
    the handler that was registered first is not among the activities. -/
theorem identities_collide :
    ∃ (r : RuntimeConfig) (made c : TemporalConnector String), make (orderConfig "orderCreated" "order_created") = .ok r ∧
      makeConnector r 1 = .ok made ∧ Steps (step asciiTables r) Any made c ∧ ¬Distinct asciiTables r c ∧ ¬Keeps r c := by
  have runs : (bothRegistered "orderCreated" "order_created").map (fun (r, c) =>
      ((c.endpoints.get 10, (endpointConfig r 10).toOption), (c.endpoints.get 11, (endpointConfig r 11).toOption))) =
      some ((some ⟨10, "orders.endpoint.order_created.v1", "orders.endpoint.order_created.workflow.v1", some "first"⟩,
          some (orderEndpoint 10 "orderCreated", orderSettings)),
        (some ⟨11, "orders.endpoint.order_created.v1", "orders.endpoint.order_created.workflow.v1", some "second"⟩,
          some (orderEndpoint 11 "order_created", orderSettings))) := by
    decide +kernel
  have written : ((bothRegistered "orderCreated" "order_created").bind fun (r, c) => (queueActivities r c).toOption.bind
      fun queues => lookup queues "orders" "orders.endpoint.order_created.v1") = some (11, "second") := by
    decide +kernel
  obtain ⟨⟨r, c⟩, ran, facts⟩ := Option.map_eq_some_iff.mp runs
  obtain ⟨first, second⟩ := Prod.mk.inj facts
  obtain ⟨registered, configured⟩ := Prod.mk.inj first
  obtain ⟨registered', configured'⟩ := Prod.mk.inj second
  obtain ⟨built, made, makes, run⟩ := bothRegistered_run ran
  have serves : Serves r c ⟨10, _, _, _, "first"⟩ := ⟨registered, ok_of_toOption configured, rfl, rfl⟩
  have serving : Serves r c ⟨11, _, _, _, "second"⟩ := ⟨registered', ok_of_toOption configured', rfl, rfl⟩
  refine ⟨r, made, c, built, makes, run, ?_, ?_⟩
  · intro distinct
    exact (distinct _ _ serves serving (by decide)).1 rfl
  · rintro ⟨queues, filled, kept⟩
    have own := kept _ serves rfl
    rw [ran, Option.bind_some] at written
    simp only at written
    rw [filled] at written
    have other : lookup queues "orders" "orders.endpoint.order_created.v1" = some (11, "second") := written
    have both := own.symm.trans other
    cases both

end TemporalConnectors
