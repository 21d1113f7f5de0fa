import TsServiceLib.Library.Rounding
import TsServiceLib.Library.Transitions
import TsServiceLib.Context.ContextDerivation

/-!
The local interval trigger. Its points lie a whole number of periods after the
start; a wake-up of its timer counts those that have passed since the last one
that fired. Readings of the clock are whole milliseconds of valid dates, so the
sums and products are exact; the quotient is rounded to a double.
-/
namespace IntervalSchedules
open Numbers Transitions Rounding ContextDerivations

/-- A reading of the clock. -/
structure Instant where
  ms : Nat
  valid : ms ≤ 8640000000000000

structure Period where
  ms : Nat
  low : 10 ≤ ms
  high : ms ≤ 86400000

/-- The digits between `@every ` and `ms`, at most eight of them and the first not 0. -/
def intervalDigits (expression : String) : Option (List Char) :=
  let body := expression.toList.drop 7
  let digits := body.take (body.length - 2)
  if expression.toList.take 7 = "@every ".toList ∧ body.drop (body.length - 2) = ['m', 's'] ∧
      1 ≤ digits.length ∧ digits.length ≤ 8 ∧ digits.all Char.isDigit = true ∧ digits.head? ≠ some '0' then some digits
  else none

/-- Other schedules are not intervals; `error` carries the message of the `RangeError`. -/
def parseLocalScheduleInterval (expression : String) : Except String (Option Period) :=
  if "@every".toList.isPrefixOf expression.toList then
    let milliseconds := (intervalDigits expression).map fun digits =>
      digits.foldl (fun sum digit => sum * 10 + (digit.toNat - 48)) 0
    match milliseconds with
    | none => .error "local interval requires @every <10..86400000>ms"
    | some ms =>
      if range : 10 ≤ ms ∧ ms ≤ 86400000 then .ok (some ⟨ms, range.1, range.2⟩)
      else .error "local interval requires @every <10..86400000>ms"
  else .ok none

inductive MissedRunPolicy where
  | FireOnce
  | Skip
  deriving DecidableEq

/-- What a wake-up of the timer reads: the clock, again when the timer is set,
    the owner, and the policy then in force; `none` where `cronConfig` throws. -/
structure Wake where
  now : Instant
  later : Instant
  cancelled : Bool
  remainingMs : Option Number
  policy : Option MissedRunPolicy

/-- A point that was considered, and whether it was dispatched. -/
structure Fire where
  scheduledAt : Int
  dispatched : Bool
  deriving DecidableEq

/-- `clock` is the last wake-up, or the start; `history` are the wake-ups, newest first. -/
structure Interval where
  period : Period
  next : Int
  timer : Option Number
  stopped : Bool
  clock : Nat
  history : List (Wake × Option Fire)

/-- `Math.max(0, Math.min(next - Date.now(), owner.remainingMs() ?? Infinity, 2_147_483_647))` -/
def delay (next : Int) (now : Instant) (remainingMs : Option Number) : Number :=
  let least := minimum (minimum (.finite (next - now.ms)) (remainingMs.getD .posInfinity)) (.finite 2147483647)
  if least.lt (.finite 0) then .finite 0 else least

section Operations
variable (s : Interval)

def stop : Interval := { s with stopped := true, timer := none }

def arm (now : Instant) (remainingMs : Option Number) : Interval :=
  { s with timer := some (delay s.next now remainingMs) }

def startInterval (period : Period) (now later : Instant) (cancelled : Bool) (remainingMs : Option Number) : Interval :=
  let created : Interval :=
    { period, next := now.ms + period.ms, timer := none, stopped := false, clock := now.ms, history := [] }
  if cancelled then stop created else arm created later remainingMs

def log (w : Wake) (fired : Option Fire) : Interval :=
  { s with clock := w.now.ms, history := (w, fired) :: s.history }

/-- The points from `next` to now, and one. -/
def elapsed (w : Wake) : Int := ⌊nearest (((w.now.ms - s.next : Int) : ℚ) / s.period.ms)⌋ + 1

def fire (w : Wake) : Interval :=
  if s.stopped ∨ w.cancelled then log (stop s) w none
  else
    let count := elapsed s w
    if count < 1 then log (arm s w.later w.remainingMs) w none
    else
      let scheduledAt := s.next + (count - 1) * s.period.ms
      let moved := { s with next := s.next + count * s.period.ms }
      log (arm moved w.later w.remainingMs) w (some ⟨scheduledAt, count = 1 ∨ w.policy = some .FireOnce⟩)

end Operations

inductive Action where
  | wake (w : Wake)
  | stop

def step (s : Interval) : Action → Option Interval
  | .wake w => if s.timer.isSome then some (fire s w) else none
  | .stop => some (stop s)

def NonDecreasing (s : Interval) : Action → Prop
  | .wake w => s.clock ≤ w.now.ms
  | .stop => True

section Points

def lastPoint (start : Int) : List (Wake × Option Fire) → Int
  | [] => start
  | (_, some fired) :: _ => fired.scheduledAt
  | (_, none) :: earlier => lastPoint start earlier

/-- What a wake-up does, by the number `n` of points since the last that fired. -/
def Exact (period : Period) (last : Int) (w : Wake) (fired : Option Fire) : Prop :=
  ∃ n : Nat, last + n * period.ms ≤ w.now.ms ∧ w.now.ms < last + (n + 1) * period.ms ∧
    fired = if n = 0 then none else some ⟨last + n * period.ms, n = 1 ∨ w.policy = some .FireOnce⟩

def Lawful (period : Period) (start : Int) : List (Wake × Option Fire) → Prop
  | [] => True
  | (w, fired) :: earlier =>
    Lawful period start earlier ∧
      if w.cancelled then fired = none else Exact period (lastPoint start earlier) w fired

/-- The count that a wake-up computes is the number of points since the last that fired. -/
theorem elapsed_spec {s : Interval} {w : Wake} (reached : s.next - s.period.ms ≤ w.now.ms) (positive : 0 ≤ s.next) :
    ∃ n : Nat, s.next - s.period.ms + n * s.period.ms ≤ w.now.ms ∧
      w.now.ms < s.next - s.period.ms + (n + 1) * s.period.ms ∧
      if n = 0 then elapsed s w < 1 else elapsed s w = n := by
  have period : 0 < s.period.ms := Nat.lt_of_lt_of_le (by decide) s.period.low
  rcases Int.lt_or_le w.now.ms s.next with early | due
  · refine ⟨0, by simpa using reached, by simpa using early, ?_⟩
    have negative : ((w.now.ms - s.next : Int) : ℚ) / s.period.ms < 0 := by
      apply div_neg_of_neg_of_pos
      · exact_mod_cast (by omega : (w.now.ms - s.next : Int) < 0)
      · exact_mod_cast period
    have below := floor_nearest_negative negative
    rw [if_pos rfl, elapsed]
    omega
  · obtain ⟨late, same⟩ := Int.eq_ofNat_of_zero_le (by omega : 0 ≤ (w.now.ms : Int) - s.next)
    have valid := w.now.valid
    have count : elapsed s w = (late / s.period.ms : Nat) + 1 := by
      rw [elapsed, same, Int.cast_natCast, floor_nearest_div (by omega) period]
    have low : late / s.period.ms * s.period.ms ≤ late := Nat.div_mul_le_self ..
    have high : late < late / s.period.ms * s.period.ms + s.period.ms := Nat.lt_div_mul_add period
    generalize late / s.period.ms = n at count low high
    have scaled : ((n + 1 : Nat) : Int) * s.period.ms = n * s.period.ms + s.period.ms := by
      push_cast
      ring
    have product : ((n * s.period.ms : Nat) : Int) = n * s.period.ms := by push_cast; ring
    refine ⟨n + 1, ?_, ?_, ?_⟩
    · rw [scaled]
      omega
    · rw [add_mul, one_mul, scaled]
      omega
    · rw [if_neg (Nat.succ_ne_zero n), count]
      push_cast
      ring

/-- The next point is one period after the last that fired, which lies on the
    grid and not in the future. -/
structure Scheduled (period : Period) (start : Instant) (s : Interval) : Prop where
  own : s.period = period
  next : s.next = lastPoint start.ms s.history + period.ms
  reached : lastPoint start.ms s.history ≤ s.clock
  later : start.ms ≤ lastPoint start.ms s.history
  halted : s.stopped = true → s.timer = none
  lawful : Lawful period start.ms s.history

theorem start_scheduled (period : Period) (start later : Instant) (cancelled : Bool) (remainingMs : Option Number) :
    Scheduled period start (startInterval period start later cancelled remainingMs) := by
  unfold startInterval
  dsimp only
  split
  · exact ⟨rfl, rfl, le_refl _, le_refl _, fun _ => rfl, trivial⟩
  · refine ⟨rfl, rfl, le_refl _, le_refl _, ?_, trivial⟩
    intro stopped
    cases stopped

theorem stop_scheduled {period : Period} {start : Instant} {s : Interval} (scheduled : Scheduled period start s) :
    Scheduled period start (stop s) :=
  { scheduled with halted := fun _ => rfl }

theorem quiet_scheduled {period : Period} {start : Instant} {s t : Interval} {w : Wake}
    (scheduled : Scheduled period start s) (ordered : s.clock ≤ w.now.ms)
    (same : t.period = s.period ∧ t.next = s.next ∧ t.history = s.history)
    (halted : t.stopped = true → t.timer = none)
    (fired : if w.cancelled then True else Exact period (lastPoint start.ms s.history) w none) :
    Scheduled period start (log t w none) := by
  obtain ⟨periods, nexts, histories⟩ := same
  constructor
  · exact periods.trans scheduled.own
  · simp only [log, lastPoint, nexts, histories]
    exact scheduled.next
  · simp only [log, lastPoint, histories]
    have reached := scheduled.reached
    omega
  · simp only [log, lastPoint, histories]
    exact scheduled.later
  · exact halted
  · simp only [log, Lawful, histories]
    refine ⟨scheduled.lawful, ?_⟩
    split
    · trivial
    · rename_i owner
      rw [if_neg owner] at fired
      exact fired

theorem fire_scheduled {period : Period} {start : Instant} {s : Interval} {w : Wake}
    (scheduled : Scheduled period start s) (ordered : s.clock ≤ w.now.ms) (running : s.stopped = false) :
    Scheduled period start (fire s w) := by
  unfold fire
  split
  · rename_i ended
    have cancelled : w.cancelled = true := by
      rcases ended with stopped | cancelled
      · rw [running] at stopped
        cases stopped
      · exact cancelled
    refine quiet_scheduled scheduled ordered ⟨rfl, rfl, rfl⟩ (fun _ => rfl) ?_
    rw [if_pos cancelled]
    trivial
  · rename_i going
    have owner : w.cancelled = false := by simpa using fun cancelled => going (.inr cancelled)
    have last : s.next - s.period.ms = lastPoint start.ms s.history := by
      rw [scheduled.next, scheduled.own]
      omega
    have reached := scheduled.reached
    have later := scheduled.later
    have next := scheduled.next
    obtain ⟨n, low, high, count⟩ := elapsed_spec (s := s) (w := w) (by omega) (by omega)
    rw [last, scheduled.own] at low high
    dsimp only
    split
    · rename_i few
      have zero : n = 0 := by
        by_contra some_
        rw [if_neg some_] at count
        omega
      refine quiet_scheduled scheduled ordered ⟨rfl, rfl, rfl⟩ ?_ ?_
      · intro stopped
        exact absurd (running.symm.trans stopped) (by simp)
      · rw [owner]
        exact ⟨n, low, high, by rw [if_pos zero]⟩
    · rename_i many
      have some_ : n ≠ 0 := by
        intro zero
        rw [if_pos zero] at count
        exact many count
      rw [if_neg some_] at count
      have point : s.next + (elapsed s w - 1) * s.period.ms = lastPoint start.ms s.history + n * period.ms := by
        rw [count, scheduled.next, scheduled.own]
        ring
      have fired : (decide (elapsed s w = 1 ∨ w.policy = some .FireOnce)) =
          decide (n = 1 ∨ w.policy = some .FireOnce) := by
        rw [count, decide_eq_decide]
        norm_cast
      have grown : lastPoint start.ms s.history ≤ lastPoint start.ms s.history + n * period.ms := by
        have product : (0 : Int) ≤ n * period.ms := by positivity
        omega
      constructor
      · exact scheduled.own
      · simp only [log, arm, lastPoint, point]
        rw [count, scheduled.next, scheduled.own]
        ring
      · simp only [log, arm, lastPoint, point]
        exact low
      · simp only [log, arm, lastPoint, point]
        omega
      · intro stopped
        exact absurd (running.symm.trans stopped) (by simp)
      · simp only [log, arm, Lawful, point, fired, owner, Bool.false_eq_true, if_false]
        exact ⟨scheduled.lawful, n, low, high, by rw [if_neg some_]⟩

theorem step_scheduled {period : Period} {start : Instant} {s t : Interval} {a : Action}
    (scheduled : Scheduled period start s) (ordered : NonDecreasing s a) (next : step s a = some t) :
    Scheduled period start t := by
  cases a with
  | wake w =>
    simp only [step] at next
    split at next
    · rename_i armed
      cases next
      apply fire_scheduled scheduled ordered
      rw [Bool.eq_false_iff]
      intro stopped
      rw [scheduled.halted stopped] at armed
      cases armed
    · cases next
  | stop =>
    cases next
    exact stop_scheduled scheduled

/-- The points that fired, newest first. -/
def fires (history : List (Wake × Option Fire)) : List Fire := history.filterMap Prod.snd

theorem exact_fired {period : Period} {last : Int} {w : Wake} {fired : Fire} (law : Exact period last w (some fired)) :
    ∃ n : Nat, 0 < n ∧ fired.scheduledAt = last + n * period.ms ∧ fired.scheduledAt ≤ w.now.ms ∧
      w.now.ms < fired.scheduledAt + period.ms := by
  obtain ⟨n, low, high, same⟩ := law
  split at same
  · cases same
  · rename_i positive
    cases same
    refine ⟨n, Nat.pos_of_ne_zero positive, rfl, low, ?_⟩
    rw [add_mul, one_mul] at high
    dsimp only
    omega

theorem lawful_fired {period : Period} {start : Int} {w : Wake} {fired : Fire} {earlier : List (Wake × Option Fire)}
    (law : Lawful period start ((w, some fired) :: earlier)) : Exact period (lastPoint start earlier) w (some fired) := by
  have own := law.2
  split at own
  · cases own
  · exact own

theorem lastPoint_grid {period : Period} {start : Int} {history : List (Wake × Option Fire)}
    (law : Lawful period start history) :
    (∃ k : Nat, lastPoint start history = start + k * period.ms) ∧
      ∀ fired ∈ fires history, fired.scheduledAt ≤ lastPoint start history := by
  induction history with
  | nil => exact ⟨⟨0, by simp [lastPoint]⟩, by simp [fires]⟩
  | cons entry earlier ih =>
    obtain ⟨w, result⟩ := entry
    obtain ⟨⟨k, last⟩, before⟩ := ih law.1
    cases result with
    | none => exact ⟨⟨k, last⟩, before⟩
    | some fired =>
      obtain ⟨n, _, point, _⟩ := exact_fired (lawful_fired law)
      have grown : lastPoint start earlier ≤ fired.scheduledAt := by
        have product : (0 : Int) ≤ n * period.ms := by positivity
        omega
      refine ⟨⟨k + n, ?_⟩, ?_⟩
      · simp only [lastPoint]
        rw [point, last]
        push_cast
        ring
      · intro other mem
        rcases List.mem_cons.mp (show other ∈ fired :: fires earlier from mem) with same | old
        · rw [same]
          exact le_refl _
        · exact le_trans (before other old) grown

theorem lawful_increasing {period : Period} {start : Int} {history : List (Wake × Option Fire)}
    (law : Lawful period start history) :
    (fires history).Pairwise fun newer older => older.scheduledAt < newer.scheduledAt := by
  induction history with
  | nil => exact List.Pairwise.nil
  | cons entry earlier ih =>
    obtain ⟨w, result⟩ := entry
    cases result with
    | none => exact ih law.1
    | some fired =>
      refine List.Pairwise.cons ?_ (ih law.1)
      intro older mem
      obtain ⟨n, positive, point, _⟩ := exact_fired (lawful_fired law)
      have bound := (lastPoint_grid law.1).2 older mem
      have period_pos : 0 < period.ms := Nat.lt_of_lt_of_le (by decide) period.low
      have product : (0 : Int) < n * period.ms := by positivity
      omega

theorem lawful_grid {period : Period} {start : Int} {history : List (Wake × Option Fire)}
    (law : Lawful period start history) {w : Wake} {fired : Fire} (mem : (w, some fired) ∈ history) :
    ∃ k : Nat, 0 < k ∧ fired.scheduledAt = start + k * period.ms ∧ fired.scheduledAt ≤ w.now.ms ∧
      w.now.ms < fired.scheduledAt + period.ms := by
  induction history with
  | nil => cases mem
  | cons entry earlier ih =>
    rcases List.mem_cons.mp mem with same | old
    · subst same
      obtain ⟨n, positive, point, reached, next⟩ := exact_fired (lawful_fired law)
      obtain ⟨k, last⟩ := (lastPoint_grid law.1).1
      refine ⟨k + n, by omega, ?_, reached, next⟩
      rw [point, last]
      push_cast
      ring
    · exact ih law.1 old

end Points

/- In every run whose wake-ups do not go back in time: a wake-up fires exactly if
   a point has passed since the last that fired, at the latest such point, and
   dispatches it if it is the only one or the policy is FireOnce; the points
   that fire increase and lie whole periods after the start, each the last one
   not later than its wake-up. -/
theorem interval_exact {period : Period} {start later : Instant} {cancelled : Bool} {remainingMs : Option Number}
    {s : Interval} (run : Steps step NonDecreasing (startInterval period start later cancelled remainingMs) s) :
    Lawful period start.ms s.history ∧
      ((fires s.history).Pairwise fun newer older => older.scheduledAt < newer.scheduledAt) ∧
      ∀ w fired, (w, some fired) ∈ s.history → ∃ k : Nat, 0 < k ∧ fired.scheduledAt = start.ms + k * period.ms ∧
        fired.scheduledAt ≤ w.now.ms ∧ w.now.ms < fired.scheduledAt + period.ms := by
  have scheduled := steps_invariant (Scheduled period start)
    (fun _ _ _ scheduled ordered next => step_scheduled scheduled ordered next) run
    (start_scheduled period start later cancelled remainingMs)
  refine ⟨scheduled.lawful, lawful_increasing scheduled.lawful, ?_⟩
  intro w fired mem
  exact lawful_grid scheduled.lawful mem

def nonDecreasing (s : Interval) : Action → Bool
  | .wake w => decide (s.clock ≤ w.now.ms)
  | .stop => true

theorem nonDecreasing_sound (s : Interval) (a : Action) (passed : nonDecreasing s a = true) : NonDecreasing s a := by
  cases a with
  | wake w =>
    simp only [nonDecreasing, decide_eq_true_eq] at passed
    exact passed
  | stop => trivial

def wakeAt (now : Instant) : Action := .wake ⟨now, now, false, none, some .Skip⟩

/-- An early wake-up, one on a point, and one when two more have passed. -/
def lateWakes : List Action :=
  [wakeAt ⟨109, by decide⟩, wakeAt ⟨110, by decide⟩, wakeAt ⟨135, by decide⟩]

theorem interval_exact_late : ∃ s : Interval, fires s.history = [⟨130, false⟩, ⟨110, true⟩] ∧
    Lawful ⟨10, by decide, by decide⟩ 100 s.history := by
  have evaluated : (execWhere step nonDecreasing (startInterval ⟨10, by decide, by decide⟩ ⟨100, by decide⟩
      ⟨100, by decide⟩ false none) lateWakes).any (fun s => decide (fires s.history = [⟨130, false⟩, ⟨110, true⟩])) =
      true := by
    decide +kernel
  simp only [Option.any_eq_true, decide_eq_true_eq] at evaluated
  obtain ⟨s, run, fired⟩ := evaluated
  exact ⟨s, fired, (interval_exact (execWhere_steps nonDecreasing_sound run)).1⟩

end IntervalSchedules
