import TsServiceLib.Config.RuntimeConfig
import TsServiceLib.Pool.TaskPool

/-!
From an accepted configuration to pools and callers. The validator of call
semantics lets the empty pool name pass, which the parser itself writes for the
codes 3 and 4; the two places that look the pool up know no such exception.
-/
namespace PoolWirings
open Numbers ConfigValues ConfigParsers RuntimeConfigs OrderedMaps Pools

structure RuntimePools where
  task : OrderedMap String (Pool Unit (FifoQueue Nat)) := OrderedMap.empty
  priority : OrderedMap String (Pool Number PriorityQueue) := OrderedMap.empty

/-- The constructor of a pool throws a `RangeError`. -/
def constructed {P : Type} : Except PoolError P → Checked P := Except.mapError fun e => .range e.message

/-- The function `use` of `makeRuntimePools`; `availableParallelism` is what the
    machine says where the count is 0. -/
def use (r : RuntimeConfig) (availableParallelism : Option Nat) (pools : RuntimePools)
    (semantics : Option CallSemanticsGroup) : Checked RuntimePools :=
  match semantics with
  | some (.taskPool poolName) =>
    match poolByName r poolName with
    | none => fails ("pool config " ++ poolName ++ " not found")
    | some poolConfig =>
      if pools.task.has poolName then .ok pools
      else do
        let pool ← constructed (Pools.make fifo poolName availableParallelism (.finite poolConfig.executorsCount))
        return { pools with task := pools.task.set poolName pool }
  | some (.priorityTaskPool poolName _) =>
    match poolByName r poolName with
    | none => fails ("pool config " ++ poolName ++ " not found")
    | some poolConfig =>
      if pools.priority.has poolName then .ok pools
      else do
        let pool ← constructed (Pools.make prioritised poolName availableParallelism (.finite poolConfig.executorsCount))
        return { pools with priority := pools.priority.set poolName pool }
  | _ => .ok pools

def makeRuntimePools (r : RuntimeConfig) (availableParallelism : Option Nat) : Checked RuntimePools :=
  (selections r.config).foldlM (use r availableParallelism) {}

/-- A caller, with the stream that consumes and the pool it goes through. -/
inductive Caller where
  | function (consumer : Int) (async : Bool)
  | taskPool (pool : String) (consumer : Int)
  | priorityTaskPool (pool : String) (consumer : Int) (priority : Int)
  | parallel (consumer : Int)
  deriving DecidableEq

/-- The semantics of a pair of streams: those of its link, else those of the service, else a plain call. -/
def effectiveOf (r : RuntimeConfig) (service : ServiceConfig) (source consumer : Int) : CallSemanticsGroup :=
  (((link r source consumer).bind LinkConfig.callSemantics).or service.defaultCallSemantics).getD (.functionCall false)

/-- The method `create` of the caller factory of the service with this id. -/
def create (r : RuntimeConfig) (pools : RuntimePools) (serviceId source consumer : Int) : Checked Caller :=
  match serviceById r serviceId with
  | none => fails ("service config " ++ toString serviceId ++ " not found")
  | some service =>
    match effectiveOf r service source consumer with
    | .functionCall async => .ok (.function consumer async)
    | .taskPool poolName =>
      match pools.task.get poolName with
      | none => fails ("task pool " ++ poolName ++ " not found")
      | some pool => .ok (.taskPool pool.name consumer)
    | .priorityTaskPool poolName priority =>
      match pools.priority.get poolName with
      | none => fails ("priority task pool " ++ poolName ++ " not found")
      | some pool => .ok (.priorityTaskPool pool.name consumer priority)
    | .parallelCall => .ok (.parallel consumer)

def accept (document : Value) : Checked RuntimeConfig := do
  let config ← parseCanonicalConfig document
  RuntimeConfigs.make config

/-- The pools are made, and so is the caller of every configured link and of
    every pair of streams without one, whichever service of the configuration it is for. -/
def Wired (r : RuntimeConfig) (availableParallelism : Option Nat) : Prop :=
  ∃ pools, makeRuntimePools r availableParallelism = .ok pools ∧ ∀ service ∈ r.config.services,
    (∀ found ∈ r.config.links, ∃ caller, create r pools service.id found.source found.target = .ok caller) ∧
    ∀ source consumer, hasStreamReference r source = true → hasStreamReference r consumer = true →
      link r source consumer = none → ∃ caller, create r pools service.id source consumer = .ok caller

/-- Nothing is sent through a pool with the empty name, unless there is one. -/
def NamesPools (config : CanonicalConfig) : Prop :=
  (∃ pool ∈ config.pools, pool.name = "") ∨ ∀ selected ∈ selections config, selected.bind poolNameOf ≠ some ""

/-- The pool that the semantics go through has been made. -/
def Provides (pools : RuntimePools) : CallSemanticsGroup → Prop
  | .taskPool poolName => pools.task.has poolName = true
  | .priorityTaskPool poolName _ => pools.priority.has poolName = true
  | _ => True

section Laws
variable {config : CanonicalConfig} {r : RuntimeConfig} {availableParallelism : Option Nat} {pools next : RuntimePools}

theorem make_pool {A Q : Type} (D : Discipline A Q) (availableParallelism : Option Nat) {count : Int} (name : String) (safe : isSafe count = true)
    (natural : 0 ≤ count) : ∃ pool, constructed (Pools.make D name availableParallelism (.finite count)) = .ok pool := by
  have normal : ∃ n, normalizeExecutorsCount availableParallelism (.finite count) = .ok n := by
    have positive : ¬((count : ℚ) < 0) := by
      rw [not_lt]
      exact_mod_cast natural
    have allowed : ¬((Number.finite count).isSafeInteger = false ∨ (count : ℚ) < 0) := by
      rintro (unsafe_count | negative)
      · rw [isSafe, unsafe_count] at safe
        cases safe
      · exact positive negative
    exact ⟨_, if_neg allowed⟩
  obtain ⟨n, normalized⟩ := normal
  have made : Pools.make D name availableParallelism (.finite count) =
      .ok { name, availableParallelism, executorsCount := n, queue := D.empty } := by
    simp only [Pools.make, normalized]
  exact ⟨_, by rw [made]; rfl⟩

theorem has_set {V : Type} (m : OrderedMap String V) (name key : String) (v : V) :
    (m.set name v).has key = true ↔ key = name ∨ m.has key = true := by
  rw [OrderedMap.has_iff, OrderedMap.has_iff, OrderedMap.get_set]
  split
  · rename_i same
    exact iff_of_true ⟨v, rfl⟩ (.inl same)
  · rename_i other
    rw [or_iff_right other]

theorem use_keeps {semantics : Option CallSemanticsGroup} (used : use r availableParallelism pools semantics = .ok next)
    {other : CallSemanticsGroup} (provided : Provides pools other) : Provides next other := by
  unfold use at used
  split at used
  · split at used
    · cases used
    · split at used
      · cases used
        exact provided
      · obtain ⟨pool, _, returned⟩ := Framing.bind_ok.mp used
        cases returned
        cases other with
        | taskPool poolName => exact (has_set _ _ _ _).mpr (.inr provided)
        | priorityTaskPool poolName priority => exact provided
        | functionCall async => trivial
        | parallelCall => trivial
  · split at used
    · cases used
    · split at used
      · cases used
        exact provided
      · obtain ⟨pool, _, returned⟩ := Framing.bind_ok.mp used
        cases returned
        cases other with
        | taskPool poolName => exact provided
        | priorityTaskPool poolName priority => exact (has_set _ _ _ _).mpr (.inr provided)
        | functionCall async => trivial
        | parallelCall => trivial
  · cases used
    exact provided

/-- The pool asked for has been made afterwards, and it is configured. -/
theorem use_provides {semantics : CallSemanticsGroup} (used : use r availableParallelism pools (some semantics) = .ok next) :
    Provides next semantics ∧ ∀ name, poolNameOf semantics = some name → ∃ pool, poolByName r name = some pool := by
  cases semantics with
  | functionCall async => exact ⟨trivial, nofun⟩
  | parallelCall => exact ⟨trivial, nofun⟩
  | taskPool poolName =>
    simp only [use] at used
    split at used
    · cases used
    · rename_i poolConfig found
      refine ⟨?_, ?_⟩
      · split at used
        · rename_i present
          cases used
          exact present
        · obtain ⟨pool, _, returned⟩ := Framing.bind_ok.mp used
          cases returned
          exact (has_set _ _ _ _).mpr (.inl rfl)
      · rintro name same
        cases same
        exact ⟨poolConfig, found⟩
  | priorityTaskPool poolName priority =>
    simp only [use] at used
    split at used
    · cases used
    · rename_i poolConfig found
      refine ⟨?_, ?_⟩
      · split at used
        · rename_i present
          cases used
          exact present
        · obtain ⟨pool, _, returned⟩ := Framing.bind_ok.mp used
          cases returned
          exact (has_set _ _ _ _).mpr (.inl rfl)
      · rintro name same
        cases same
        exact ⟨poolConfig, found⟩

theorem use_ok (accepted : Accepted config r) (pools : RuntimePools) {semantics : Option CallSemanticsGroup}
    (configured : ∀ name, semantics.bind poolNameOf = some name → ∃ pool, poolByName r name = some pool) :
    ∃ next, use r availableParallelism pools semantics = .ok next := by
  have counted : ∀ {name : String} {pool : PoolConfig}, poolByName r name = some pool →
      isSafe pool.executorsCount = true ∧ 0 ≤ pool.executorsCount := by
    intro name pool found
    exact accepted.counts pool ((accepted.pools name pool).mp found).1
  unfold use
  split
  · rename_i poolName
    obtain ⟨poolConfig, found⟩ := configured poolName rfl
    rw [found]
    simp only
    split
    · exact ⟨pools, rfl⟩
    · obtain ⟨safe, natural⟩ := counted found
      obtain ⟨pool, made⟩ := make_pool fifo availableParallelism poolName safe natural
      exact ⟨_, Framing.bind_ok.mpr ⟨pool, made, rfl⟩⟩
  · rename_i poolName priority
    obtain ⟨poolConfig, found⟩ := configured poolName rfl
    rw [found]
    simp only
    split
    · exact ⟨pools, rfl⟩
    · obtain ⟨safe, natural⟩ := counted found
      obtain ⟨pool, made⟩ := make_pool prioritised availableParallelism poolName safe natural
      exact ⟨_, Framing.bind_ok.mpr ⟨pool, made, rfl⟩⟩
  · exact ⟨pools, rfl⟩

theorem loop_keeps {selected : List (Option CallSemanticsGroup)}
    (looped : selected.foldlM (use r availableParallelism) pools = .ok next) {other : CallSemanticsGroup}
    (provided : Provides pools other) : Provides next other := by
  induction selected generalizing pools with
  | nil =>
    cases looped
    exact provided
  | cons semantics rest ih =>
    rw [List.foldlM_cons] at looped
    obtain ⟨made, used, later⟩ := Framing.bind_ok.mp looped
    exact ih later (use_keeps used provided)

/-- A loop that comes to its end has made every pool that it was asked for. -/
theorem loop_provides {selected : List (Option CallSemanticsGroup)}
    (looped : selected.foldlM (use r availableParallelism) pools = .ok next) {semantics : CallSemanticsGroup}
    (mem : some semantics ∈ selected) :
    Provides next semantics ∧ ∀ name, poolNameOf semantics = some name → ∃ pool, poolByName r name = some pool := by
  induction selected generalizing pools with
  | nil => cases mem
  | cons first rest ih =>
    rw [List.foldlM_cons] at looped
    obtain ⟨made, used, later⟩ := Framing.bind_ok.mp looped
    rcases List.mem_cons.mp mem with here | inside
    · rw [← here] at used
      obtain ⟨provided, configured⟩ := use_provides used
      exact ⟨loop_keeps later provided, configured⟩
    · exact ih later inside

theorem loop_ok (accepted : Accepted config r) (pools : RuntimePools) {selected : List (Option CallSemanticsGroup)}
    (configured : ∀ semantics ∈ selected, ∀ name, semantics.bind poolNameOf = some name → ∃ pool, poolByName r name = some pool) :
    ∃ next, selected.foldlM (use r availableParallelism) pools = .ok next := by
  induction selected generalizing pools with
  | nil => exact ⟨pools, rfl⟩
  | cons first rest ih =>
    obtain ⟨made, used⟩ := use_ok accepted pools (configured first (List.mem_cons_self))
    obtain ⟨next, later⟩ := ih made fun semantics mem => configured semantics (List.mem_cons_of_mem first mem)
    exact ⟨next, by rw [List.foldlM_cons]; exact Framing.bind_ok.mpr ⟨made, used, later⟩⟩

theorem create_ok (accepted : Accepted config r) (provided : ∀ semantics, some semantics ∈ selections config → Provides pools semantics)
    {service : ServiceConfig} (mem : service ∈ config.services) (source consumer : Int) :
    ∃ caller, create r pools service.id source consumer = .ok caller := by
  have chosen : effectiveOf r service source consumer = .functionCall false ∨
      some (effectiveOf r service source consumer) ∈ selections config := by
    unfold effectiveOf
    cases linked : (link r source consumer).bind LinkConfig.callSemantics with
    | some semantics =>
      obtain ⟨found, here, own⟩ := Option.bind_eq_some_iff.mp linked
      have listed := accepted.links source consumer found here
      exact .inr (List.mem_append_left _ (List.mem_map.mpr ⟨found, listed, own⟩))
    | none =>
      cases default : service.defaultCallSemantics with
      | some semantics => exact .inr (List.mem_append_right _ (List.mem_map.mpr ⟨service, mem, default⟩))
      | none => exact .inl rfl
  have ready : Provides pools (effectiveOf r service source consumer) := by
    rcases chosen with plain | listed
    · rw [plain]
      trivial
    · exact provided _ listed
  simp only [create, accepted.services service mem]
  cases effective : effectiveOf r service source consumer with
  | functionCall async => exact ⟨_, rfl⟩
  | parallelCall => exact ⟨_, rfl⟩
  | taskPool poolName =>
    rw [effective] at ready
    obtain ⟨pool, found⟩ := (OrderedMap.has_iff _ _).mp ready
    exact ⟨.taskPool pool.name consumer, by simp only [found]⟩
  | priorityTaskPool poolName priority =>
    rw [effective] at ready
    obtain ⟨pool, found⟩ := (OrderedMap.has_iff _ _).mp ready
    exact ⟨.priorityTaskPool pool.name consumer priority, by simp only [found]⟩

/-- Every pool that calls go through is configured exactly if none of them has
    the empty name or a pool has. -/
theorem configured_iff (accepted : Accepted config r) :
    (∀ semantics ∈ selections config, ∀ name, semantics.bind poolNameOf = some name → ∃ pool, poolByName r name = some pool) ↔
      NamesPools config := by
  constructor
  · intro configured
    by_cases empty : ∃ semantics ∈ selections config, semantics.bind poolNameOf = some ""
    · obtain ⟨semantics, mem, selects⟩ := empty
      obtain ⟨pool, found⟩ := configured semantics mem "" selects
      obtain ⟨listed, named⟩ := (accepted.pools "" pool).mp found
      exact .inl ⟨pool, listed, named⟩
    · exact .inr fun semantics mem selects => empty ⟨semantics, mem, selects⟩
  · intro condition semantics mem name selects
    rcases accepted.semantics semantics mem name selects with rfl | known
    · rcases condition with ⟨pool, listed, named⟩ | never
      · exact ⟨pool, (accepted.pools "" pool).mpr ⟨listed, named⟩⟩
      · exact absurd selects (never semantics mem)
    · exact known

end Laws

/- An accepted configuration can be wired exactly if it sends nothing through a
   pool with the empty name, or configures one. -/
theorem accepted_wired {document : Value} {r : RuntimeConfig} (accepts : accept document = .ok r)
    (availableParallelism : Option Nat) : Wired r availableParallelism ↔ NamesPools r.config := by
  obtain ⟨config, _, made⟩ := Framing.bind_ok.mp accepts
  have accepted := make_accepted made
  have same := accepted.kept
  subst same
  rw [← configured_iff accepted]
  constructor
  · rintro ⟨pools, looped, _⟩ semantics mem name selects
    obtain ⟨group, rfl, named⟩ := Option.bind_eq_some_iff.mp selects
    exact (loop_provides looped mem).2 name named
  · intro configured
    obtain ⟨pools, looped⟩ := loop_ok accepted {} configured
    have provided : ∀ semantics, some semantics ∈ selections r.config → Provides pools semantics :=
      fun semantics mem => (loop_provides looped mem).1
    refine ⟨pools, looped, ?_⟩
    intro service mem
    constructor
    · intro found _
      exact create_ok accepted provided mem found.source found.target
    · intro source consumer _ _ _
      exact create_ok accepted provided mem source consumer

/-- A document with one service and one pool. -/
def orderDocument (defaultCallSemantics : Value) : Value :=
  .object
    [("services", .object
      [("orderService", .object
        [("id", .number (.finite 3)), ("name", .string "Order Service"), ("color", .string "#ff5c00"),
          ("defaultCallSemantics", defaultCallSemantics), ("environment", .string "production"),
          ("grpcHost", .string "0.0.0.0"), ("grpcPort", .number (.finite 9201)),
          ("httpHost", .string "0.0.0.0"), ("httpPort", .number (.finite 9091)),
          ("metricsHandler", .string "metrics"), ("shutdownTimeout", .number (.finite 30000)),
          ("statusHandler", .string "status"), ("startupHandler", .string "/health/startup"),
          ("readinessHandler", .string "/health/ready"), ("livenessHandler", .string "/health/live"),
          ("kubernetesWorkloadType", .string "Deployment")])]),
    ("pools", .object
      [("defaultPool", .object [("name", .string "Default Pool"), ("executorsCount", .number (.finite 2))])])]

def orderConfig (defaultCallSemantics : Option CallSemanticsGroup) : CanonicalConfig :=
  { services := [
      { id := 3, name := "Order Service", defaultCallSemantics, defaultGrpcTimeout := none, grpcPort := 9201
        httpPort := 9091, shutdownTimeout := 30000 }]
    streams := [], dataConnectors := [], endpoints := []
    pools := [{ name := "Default Pool", executorsCount := 2, queueCapacity := 0 }]
    links := [], modules := [], types := [] }

/-- A service whose calls go through the configured pool. -/
theorem accepted_wired_pool :
    ∃ r, accept (orderDocument (.object [("taskPool", .object [("poolName", .string "Default Pool")])])) = .ok r ∧
      Wired r none := by
  have runs : (accept (orderDocument (.object [("taskPool", .object [("poolName", .string "Default Pool")])]))).toOption.map
      RuntimeConfig.config = some (orderConfig (some (.taskPool "Default Pool"))) := by decide +kernel
  obtain ⟨r, found, kept⟩ := Option.map_eq_some_iff.mp runs
  have accepts := ok_of_toOption found
  refine ⟨r, accepts, (accepted_wired accepts none).mpr (.inr ?_)⟩
  intro selected mem
  rw [kept] at mem
  cases List.mem_singleton.mp mem
  decide

/-- A service with the code 3 for its default semantics: the parser writes the
    empty pool name, the validator passes it and the pools cannot be made. -/
theorem accepted_unwired :
    ∃ r, accept (orderDocument (.number (.finite 3))) = .ok r ∧ ¬Wired r none ∧
      r.config = orderConfig (some (.taskPool "")) := by
  have runs : (accept (orderDocument (.number (.finite 3)))).toOption.map (fun r =>
      (r.config, (makeRuntimePools r none).toOption.isSome)) = some (orderConfig (some (.taskPool "")), false) := by
    decide +kernel
  obtain ⟨r, found, facts⟩ := Option.map_eq_some_iff.mp runs
  obtain ⟨kept, failed⟩ := Prod.mk.inj facts
  refine ⟨r, ok_of_toOption found, ?_, kept⟩
  rintro ⟨pools, made, _⟩
  rw [made] at failed
  cases failed

end PoolWirings
