import Mathlib.Data.Rat.Floor
import TsServiceLib.Temporal.PropagationLaw

/-!
The deadline of a context on a journey. It leaves a host as a whole millisecond
of the day, read off two clocks of which one is whole and the other is not, and
is turned into a time of the next host's own clock. Rounding takes it neither
below a whole millisecond that it had reached nor, on one hop, further up than
the next one.
-/
namespace ContextPropagations
open Numbers AbortSignals OrderedMaps ContextDerivations HeaderTexts

/-- The last time of day that the platform has. -/
def TIME_MAX : Int := 8640000000000000

/-- The millisecond that is sent for a deadline. -/
def headerMillis (left deadline : ℚ) : Int := ⌊left⌋ + max 0 ⌈deadline - left⌉

/-- The deadline that is set for a millisecond. -/
def reached (arrived : ℚ) (millis : Int) : ℚ := arrived + max 0 (((millis - ⌊arrived⌋ : Int)) : ℚ)

def limited (arrived : ℚ) (startToCloseTimeoutMs : Number) (deadline : ℚ) : ℚ :=
  match startToCloseTimeoutMs with
  | .finite limit => if 0 < limit then min deadline (arrived + limit) else deadline
  | _ => deadline

theorem headerMillis_ge {left deadline : ℚ} {bound : Int} (kept : (bound : ℚ) ≤ deadline) :
    bound ≤ headerMillis left deadline := by
  have fraction := Int.lt_floor_add_one left
  have rounded : bound - ⌊left⌋ - 1 < ⌈deadline - left⌉ := by
    rw [Int.lt_ceil]
    push_cast
    linarith
  unfold headerMillis
  omega

theorem headerMillis_le {left deadline : ℚ} {bound : Int} (below : deadline ≤ bound ∨ deadline ≤ left) :
    headerMillis left deadline ≤ max ⌊left⌋ bound := by
  unfold headerMillis
  rcases below with within | over_already
  · have fraction := Int.floor_le left
    have rounded : ⌈deadline - left⌉ ≤ bound - ⌊left⌋ := by
      rw [Int.ceil_le]
      push_cast
      linarith
    omega
  · have rounded : ⌈deadline - left⌉ ≤ 0 := by
      rw [Int.ceil_le]
      push_cast
      linarith
    omega

theorem reached_ge (arrived : ℚ) (millis : Int) : (millis : ℚ) ≤ reached arrived millis := by
  have fraction := Int.floor_le arrived
  have largest := le_max_right (0 : ℚ) ((millis - ⌊arrived⌋ : Int) : ℚ)
  unfold reached
  push_cast at largest ⊢
  linarith

/-- A deadline that was over at the start of a hop is over at its end, and any
    other one has gained less than a millisecond. -/
theorem reached_le {left arrived : ℚ} {millis bound : Int} (order : left ≤ arrived)
    (below : millis ≤ max ⌊left⌋ bound) : reached arrived millis ≤ arrived ∨ reached arrived millis ≤ bound + 1 := by
  have floors : ⌊left⌋ ≤ ⌊arrived⌋ := Int.floor_le_floor order
  unfold reached
  by_cases past : millis ≤ ⌊arrived⌋
  · have nothing : ((millis - ⌊arrived⌋ : Int) : ℚ) ≤ 0 := by exact_mod_cast (by omega : millis - ⌊arrived⌋ ≤ 0)
    rw [max_eq_left nothing]
    left
    linarith
  · have within : (millis : ℚ) ≤ bound := by exact_mod_cast (by omega : millis ≤ bound)
    have ahead : (0 : ℚ) ≤ ((millis - ⌊arrived⌋ : Int) : ℚ) := by exact_mod_cast (by omega : 0 ≤ millis - ⌊arrived⌋)
    have fraction := Int.lt_floor_add_one arrived
    rw [max_eq_right ahead]
    right
    push_cast
    linarith

theorem limited_le (arrived : ℚ) (startToCloseTimeoutMs : Number) (deadline : ℚ) :
    limited arrived startToCloseTimeoutMs deadline ≤ deadline := by
  unfold limited
  split
  · split
    · exact min_le_left _ _
    · exact le_refl _
  · exact le_refl _

/-- The time that a start-to-close limit leaves open. -/
def Outlasts (arrived : ℚ) (startToCloseTimeoutMs : Number) (bound : Int) : Prop :=
  ∀ limit, startToCloseTimeoutMs = .finite limit → 0 < limit → (bound : ℚ) ≤ arrived + limit

theorem limited_ge {arrived deadline : ℚ} {startToCloseTimeoutMs : Number} {bound : Int}
    (open_until : Outlasts arrived startToCloseTimeoutMs bound) (kept : (bound : ℚ) ≤ deadline) :
    (bound : ℚ) ≤ limited arrived startToCloseTimeoutMs deadline := by
  unfold limited
  split
  · rename_i limit
    split
    · rename_i positive
      exact le_min kept (open_until limit rfl positive)
    · exact kept
  · exact kept

section Header
variable {E : Type}

/-- `Math.ceil` of the time that is left, as it is added to `Date.now()`. -/
theorem ceil_remaining (remaining : ℚ) : max 0 ⌈max 0 remaining⌉ = max 0 ⌈remaining⌉ := by
  rcases le_total remaining 0 with over_already | ahead
  · have rounded : ⌈remaining⌉ ≤ 0 := by
      rw [Int.ceil_le]
      push_cast
      exact over_already
    rw [max_eq_left over_already, max_eq_left rounded]
    simp
  · rw [max_eq_right ahead]

theorem deadlineText_eq {clock : Clock} {w : World E} {state : MessageContextState} {deadline : ℚ}
    (limit : state.deadline = some (.finite (deadline - clock.origin))) (now : w.now = clock.now)
    (safe : (headerMillis clock.time deadline).natAbs ≤ Number.maxSafeInteger) :
    deadlineText clock.wall w state = some (toString (headerMillis clock.time deadline * 1000000)) := by
  have left : remainingMs w (MessageContext.fromMessageState state) = some (.finite (max 0 (deadline - clock.time))) := by
    have same : deadline - clock.origin - w.now = deadline - clock.time := by
      rw [now]
      unfold Clock.now
      ring
    change state.deadline.map _ = _
    rw [limit, Option.map_some]
    dsimp only
    rw [same]
  have sum : clock.wall + max 0 ⌈max 0 (deadline - clock.time)⌉ = headerMillis clock.time deadline := by
    rw [ceil_remaining]
    rfl
  unfold deadlineText
  rw [left]
  simp only [Option.bind_some, unixMillis, sum, Number.ofBigint_exact safe, Rat.num_intCast, Option.map_some]

/-- The header read back, on a host whose own time of day is not out of range either. -/
theorem decodedTimeout_eq {millis wall : Int} (safe : millis.natAbs ≤ Number.maxSafeInteger)
    (difference : (millis - wall).natAbs ≤ Number.maxSafeInteger) :
    decodedTimeout wall (toString (millis * 1000000)) = some (.finite (max 0 ((millis - wall : Int) : ℚ))) := by
  have whole : (millis * 1000000).tdiv 1000000 = millis := Int.mul_tdiv_cancel millis (by decide)
  have sound : (Number.finite (millis : ℚ)).isSafeInteger = true := by
    simp [Number.isSafeInteger, safe]
  have subtracted : (Number.finite (millis : ℚ)).sub (.finite (wall : ℚ)) = .finite ((millis - wall : Int) : ℚ) := by
    simp only [Number.sub, Rat.den_intCast, Rat.num_intCast, and_self, if_true, Number.ofBigint_exact difference]
  unfold decodedTimeout
  rw [parseBigint_text]
  simp only [Option.bind_some, whole, Number.ofBigint_exact safe, sound, if_true, subtracted, atLeastZero]

theorem closedBy_eq (now x : ℚ) (startToCloseTimeoutMs : Number) :
    closedBy now startToCloseTimeoutMs (some (.finite x)) = some (.finite (limited now startToCloseTimeoutMs x)) := by
  unfold closedBy limited
  cases startToCloseTimeoutMs with
  | nan => rfl
  | negInfinity => rfl
  | posInfinity =>
    simp [Number.lt, childDeadline, boundedDeadline, timeAfter, minimum]
  | finite limit =>
    by_cases positive : 0 < limit
    · have whole : max 0 limit = limit := max_eq_right (le_of_lt positive)
      simp only [Number.lt, positive, decide_true, if_true, childDeadline, boundedDeadline, timeAfter, whole]
      rcases lt_or_ge (now + limit) x with sooner | later
      · have capped : minimum (.finite x) (.finite (now + limit)) = .finite (now + limit) := by
          simp [minimum, Number.lt, sooner]
        have again : minimum (.finite x) (.finite (now + limit)) = .finite (now + limit) := capped
        rw [capped, again, min_eq_right (le_of_lt sooner)]
      · have kept : minimum (.finite x) (.finite (now + limit)) = .finite x := by
          simp [minimum, Number.lt, not_lt.mpr later]
        have same : minimum (.finite x) (.finite x) = .finite x := by simp [minimum]
        rw [kept, same, min_eq_left later]
    · simp [Number.lt, positive]

theorem limited_shift (arrived origin x : ℚ) (startToCloseTimeoutMs : Number) :
    limited (arrived - origin) startToCloseTimeoutMs (x - origin) = limited arrived startToCloseTimeoutMs x - origin := by
  unfold limited
  split
  · rename_i limit
    split
    · have moved : arrived - origin + limit = arrived + limit - origin := by ring
      rw [moved]
      rcases le_total x (arrived + limit) with sooner | later
      · rw [min_eq_left sooner, min_eq_left (by linarith)]
      · rw [min_eq_right later, min_eq_right (by linarith)]
    · rfl
  · rfl

end Header

section Hops
variable {Payload E : Type} {converter : PayloadConverter Payload} {fraction : ℚ → String}
variable (reads : ∀ text, converter.fromPayload (converter.toPayload (.text text)) = some (.text text))
variable {h : Hop Payload E} (clear : h.Clear) {state : MessageContextState}

theorem encodeContext_sends {wall : Int} {w : World E} {tracingEnabled : Bool} {text : String}
    (header : deadlineText wall w state = some text) :
    ∃ sent, encodeContext converter fraction wall w state tracingEnabled = some sent := by
  unfold deadlineText at header
  obtain ⟨remaining, limited, header⟩ := Option.bind_eq_some_iff.mp header
  obtain ⟨millis, found, _⟩ := Option.map_eq_some_iff.mp header
  unfold encodeContext
  dsimp only
  rw [limited]
  simp [found]

/-- A deadline that is no time, neither of the day nor of the clock, is refused. -/
theorem hop_refuses {deadline : Number} (limit : state.deadline = some deadline)
    (endless : deadline = .posInfinity ∨ deadline = .nan) : hop converter fraction h state = none := by
  have left : remainingMs ({ now := h.left.now } : World E) (MessageContext.fromMessageState state) = some deadline := by
    change state.deadline.map _ = _
    rw [limit]
    rcases endless with infinite | invalid
    · rw [infinite]
      rfl
    · rw [invalid]
      rfl
  have unsent : unixMillis h.left.wall deadline = none := by
    rcases endless with infinite | invalid
    · rw [infinite]
      rfl
    · rw [invalid]
      rfl
  unfold hop startWithDetails encodeContext
  dsimp only
  rw [left]
  simp [unsent]

/-- The millisecond that is sent is a safe integer, and so is its distance from
    the time of day on arrival. -/
theorem millis_safe {left arrived deadline : ℚ} {bound : Int} (below : deadline ≤ bound ∨ deadline ≤ left)
    (sendable : bound ≤ Number.maxSafeInteger) (start : 0 ≤ left) (order : left ≤ arrived) (last : arrived ≤ TIME_MAX) :
    (headerMillis left deadline).natAbs ≤ Number.maxSafeInteger ∧
      (headerMillis left deadline - ⌊arrived⌋).natAbs ≤ Number.maxSafeInteger := by
  have floors : ⌊left⌋ ≤ ⌊arrived⌋ := Int.floor_le_floor order
  have epoch : 0 ≤ ⌊left⌋ := Int.floor_nonneg.mpr start
  have range : ⌊arrived⌋ ≤ TIME_MAX := by
    have capped := Int.floor_le_floor last
    rwa [Int.floor_intCast] at capped
  have high : headerMillis left deadline ≤ max ⌊left⌋ bound := headerMillis_le below
  have low : ⌊left⌋ ≤ headerMillis left deadline := by
    unfold headerMillis
    omega
  unfold TIME_MAX at range
  unfold Number.maxSafeInteger at sendable ⊢
  omega

theorem hop_passes (converter : PayloadConverter Payload) (fraction : ℚ → String) {deadline : ℚ}
    (limit : state.deadline = some (.finite (deadline - h.left.origin)))
    (safe : (headerMillis h.left.time deadline).natAbs ≤ Number.maxSafeInteger) :
    ∃ arrived, hop converter fraction h state = some arrived := by
  obtain ⟨sent, encoded⟩ : ∃ sent, encodeContext converter fraction h.left.wall ({ now := h.left.now } : World E) state
      h.submissionTracing = some sent := encodeContext_sends (deadlineText_eq limit rfl safe)
  unfold hop startWithDetails
  dsimp only
  rw [encoded]
  exact ⟨_, rfl⟩

include reads clear in
theorem hop_deadline {deadline : ℚ} {bound : Int}
    (limit : state.deadline = some (.finite (deadline - h.left.origin)))
    (below : deadline ≤ bound ∨ deadline ≤ h.left.time) (sendable : bound ≤ Number.maxSafeInteger)
    (start : 0 ≤ h.left.time) (order : h.left.time ≤ h.arrived.time) (last : h.arrived.time ≤ TIME_MAX)
    {arrived : MessageContextState} (passed : hop converter fraction h state = some arrived) :
    arrived.deadline = some (.finite (limited h.arrived.time h.startToCloseTimeoutMs
      (reached h.arrived.time (headerMillis h.left.time deadline)) - h.arrived.origin)) := by
  obtain ⟨safe, difference⟩ := millis_safe below sendable start order last
  obtain ⟨own, headers, encoded, headed, _, _, decoded⟩ := hop_parts clear passed
  obtain ⟨_, _, sent⟩ := get_sent encoded
  have untraced : TEMPORAL_HEADER_DEADLINE_UNIX_NANO ∉ TRACE_CARRIER_NAMES := by decide
  have header := headed TEMPORAL_HEADER_DEADLINE_UNIX_NANO (by decide)
  rw [if_neg (fun taken => untraced taken.2), sent, deadlineText_eq limit rfl safe] at header
  have timeout : headerTimeout converter h.arrived.wall headers =
      some (.finite (max 0 ((headerMillis h.left.time deadline - h.arrived.wall : Int) : ℚ))) := by
    unfold headerTimeout
    rw [header, decodeString_text reads, Option.bind_some]
    exact decodedTimeout_eq safe difference
  have time : timeAfter h.arrived.now (.finite (max 0 ((headerMillis h.left.time deadline - h.arrived.wall : Int) : ℚ))) =
      .finite (reached h.arrived.time (headerMillis h.left.time deadline) - h.arrived.origin) := by
    have whole : ∀ x : ℚ, max 0 (max 0 x) = max 0 x := fun x => max_eq_right (le_max_left 0 x)
    simp only [timeAfter, whole, reached, Clock.now, Clock.wall, Number.finite.injEq]
    ring
  rw [decoded, timeout, Option.map_some, time, closedBy_eq]
  unfold Clock.now
  rw [limited_shift]

end Hops

section Journeys
variable {Payload E : Type} {converter : PayloadConverter Payload} {fraction : ℚ → String}

/-- The hops follow one another, on hosts that agree on the time of day. -/
def Timely : Clock → List (Hop Payload E) → Prop
  | _, [] => True
  | start, h :: rest =>
    h.left.origin = start.origin ∧ start.time ≤ h.left.time ∧ h.left.time ≤ h.arrived.time ∧
      h.arrived.time ≤ TIME_MAX ∧ Timely h.arrived rest

/-- The clock at the end of the journey. -/
def lastClock (start : Clock) (hops : List (Hop Payload E)) : Clock := hops.foldl (fun _ h => h.arrived) start

theorem journey_cons (h : Hop Payload E) (rest : List (Hop Payload E)) (state : MessageContextState) :
    journey converter fraction (h :: rest) state =
      (hop converter fraction h state).bind (journey converter fraction rest) := by
  simp only [journey, List.foldlM_cons]
  rfl

theorem carrierNames_and (first second : Bool) (name : String) :
    name ∈ carrierNames (first && second) ↔ name ∈ carrierNames second ∧ name ∈ carrierNames first := by
  cases first <;> cases second <;> simp [carrierNames, STREAM_ID_ONLY_NAMES, CARRIER_NAMES]
  all_goals grind

theorem carried_twice {state middle : MessageContextState} {first second : Bool}
    (passed : ∀ name, value middle name = carried state first name) (name : String) :
    carried middle second name = carried state (first && second) name := by
  have filtered : ∀ text : Option String, (text.filter (· ≠ "")).filter (· ≠ "") = text.filter (· ≠ "") := by
    intro text
    cases text with
    | none => rfl
    | some text => by_cases empty : text = "" <;> simp [empty]
  unfold carried
  rw [passed, carried]
  by_cases later : name ∈ carrierNames second
  · by_cases earlier : name ∈ carrierNames first
    · rw [if_pos later, if_pos earlier, if_pos ((carrierNames_and first second name).mpr ⟨later, earlier⟩), filtered]
    · rw [if_pos later, if_neg earlier,
        if_neg (fun both => earlier ((carrierNames_and first second name).mp both).2)]
      rfl
  · rw [if_neg later, if_neg (fun both => later ((carrierNames_and first second name).mp both).1)]

variable (reads : ∀ text, converter.fromPayload (converter.toPayload (.text text)) = some (.text text))

include reads in
theorem journey_metadata {hops : List (Hop Payload E)} (clear : ∀ h ∈ hops, h.Clear) (moved : hops ≠ [])
    {state arrived : MessageContextState} (passed : journey converter fraction hops state = some arrived)
    (name : String) : value arrived name = carried state (hops.all Hop.traced) name := by
  induction hops generalizing state with
  | nil => exact absurd rfl moved
  | cons h rest ih =>
    rw [journey_cons] at passed
    obtain ⟨middle, first, passed⟩ := Option.bind_eq_some_iff.mp passed
    have step := hop_metadata reads (clear h List.mem_cons_self) first
    by_cases stopped : rest = []
    · subst stopped
      cases passed
      simpa using step name
    · have later := ih (fun h' mem => clear h' (List.mem_cons_of_mem h mem)) stopped passed
      rw [later, carried_twice step, List.all_cons]

include reads in
theorem journey_priority {hops : List (Hop Payload E)} (clear : ∀ h ∈ hops, h.Clear)
    {state arrived : MessageContextState} (passed : journey converter fraction hops state = some arrived)
    (safe : ∀ priority, state.priority = some priority → priority.isSafeInteger = true) :
    arrived.priority = state.priority := by
  induction hops generalizing state with
  | nil =>
    cases passed
    rfl
  | cons h rest ih =>
    rw [journey_cons] at passed
    obtain ⟨middle, first, passed⟩ := Option.bind_eq_some_iff.mp passed
    have step := hop_priority reads (clear h List.mem_cons_self) first safe
    have later := ih (fun h' mem => clear h' (List.mem_cons_of_mem h mem)) passed (by rwa [step])
    rw [later, step]

include reads in
theorem journey_deadline {hops : List (Hop Payload E)} (clear : ∀ h ∈ hops, h.Clear) {start : Clock}
    (epoch : 0 ≤ start.time) (timely : Timely start hops) {state : MessageContextState} {deadline : ℚ} {bound : Int}
    (limit : state.deadline = some (.finite (deadline - start.origin)))
    (below : deadline ≤ bound ∨ deadline ≤ start.time) (sendable : bound + hops.length ≤ Number.maxSafeInteger) :
    ∃ arrived final, journey converter fraction hops state = some arrived ∧
      arrived.deadline = some (.finite (final - (lastClock start hops).origin)) ∧
      (∀ kept : Int, (kept : ℚ) ≤ deadline →
        (∀ h ∈ hops, Outlasts h.arrived.time h.startToCloseTimeoutMs kept) → (kept : ℚ) ≤ final) ∧
      (final ≤ (lastClock start hops).time ∨ final ≤ bound + hops.length) := by
  induction hops generalizing start state deadline bound with
  | nil =>
    refine ⟨state, deadline, rfl, limit, fun kept within _ => within, ?_⟩
    rcases below with within | over_already
    · right
      simpa using within
    · left
      exact over_already
  | cons h rest ih =>
    obtain ⟨same_host, departs, order, last, later_timely⟩ := timely
    have own := clear h List.mem_cons_self
    have begins : 0 ≤ h.left.time := le_trans epoch departs
    rw [← same_host] at limit
    have below_left : deadline ≤ bound ∨ deadline ≤ h.left.time := by
      rcases below with within | over_already
      · exact Or.inl within
      · exact Or.inr (le_trans over_already departs)
    have fits : bound ≤ Number.maxSafeInteger := by
      simp only [List.length_cons] at sendable
      omega
    obtain ⟨safe, _⟩ := millis_safe below_left fits begins order last
    obtain ⟨middle, passed⟩ := hop_passes converter fraction limit safe
    have set := hop_deadline reads own limit below_left fits begins order last passed
    have capped := limited_le h.arrived.time h.startToCloseTimeoutMs
      (reached h.arrived.time (headerMillis h.left.time deadline))
    have gained := reached_le order (headerMillis_le below_left)
    have below_arrived : limited h.arrived.time h.startToCloseTimeoutMs
        (reached h.arrived.time (headerMillis h.left.time deadline)) ≤ ((bound + 1 : Int) : ℚ) ∨
        limited h.arrived.time h.startToCloseTimeoutMs
          (reached h.arrived.time (headerMillis h.left.time deadline)) ≤ h.arrived.time := by
      rcases gained with over_now | within
      · exact Or.inr (le_trans capped over_now)
      · left
        push_cast
        exact le_trans capped within
    have onward : bound + 1 + (rest.length : Int) ≤ Number.maxSafeInteger := by
      simp only [List.length_cons] at sendable
      omega
    obtain ⟨arrived, final, travelled, kept_limit, lower, upper⟩ :=
      ih (fun h' mem => clear h' (List.mem_cons_of_mem h mem)) (le_trans begins order) later_timely set below_arrived onward
    refine ⟨arrived, final, ?_, kept_limit, ?_, ?_⟩
    · rw [journey_cons, passed]
      exact travelled
    · intro kept within outlasts
      apply lower kept
      · apply limited_ge (outlasts h List.mem_cons_self)
        have sent : (kept : ℚ) ≤ headerMillis h.left.time deadline := by exact_mod_cast headerMillis_ge within
        exact le_trans sent (reached_ge h.arrived.time (headerMillis h.left.time deadline))
      · intro h' mem
        exact outlasts h' (List.mem_cons_of_mem h mem)
    · rcases upper with over_now | within
      · exact Or.inl over_now
      · right
        simp only [List.length_cons]
        push_cast at within ⊢
        linarith

end Journeys

def plainConverter : PayloadConverter PayloadValue := { toPayload := id, fromPayload := some }

/-- A hop of a second and a half, through hosts with tracing. -/
def shortHop : Hop PayloadValue Unit where
  left := { time := 1000, origin := 400 }
  submissionTracing := true
  inputHeaders := OrderedMap.empty
  delivered := id
  noopTracing := some false
  activityHeaders := OrderedMap.empty
  dispatched := id
  arrived := { time := 5001 / 2, origin := 7 }
  world := {}
  activityTracing := true
  cancellationSignal := 0
  startToCloseTimeoutMs := .finite 60000

def sentState : MessageContextState where
  signal := 0
  deadline := some (.finite (5000 - 400))
  metadata := some (OrderedMap.empty.set "x-stream-id" "orders")
  priority := some (.finite 3)

end ContextPropagations
