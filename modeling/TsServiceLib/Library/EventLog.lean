import Mathlib.Data.List.Basic

/-!
Logs of events, the newest first. A property of an event and of what came
before it holds throughout a log when every event had it as it was entered.
-/
namespace EventLogs
variable {Event : Type*} {log : List Event}

/-- Every event of the log is related as `Q` says to the events before it. -/
def Each (Q : Event → List Event → Prop) (log : List Event) : Prop :=
  ∀ after e before, log = after ++ e :: before → Q e before

theorem each_nil (Q : Event → List Event → Prop) : Each Q [] := by
  intro after e before split
  cases after <;> cases split

theorem each_cons {Q : Event → List Event → Prop} {e : Event} (entered : Q e log) (each : Each Q log) :
    Each Q (e :: log) := by
  intro after e' before split
  cases after with
  | nil =>
    cases split
    exact entered
  | cons first after =>
    cases split
    exact each after e' before rfl

theorem each_append {Q : Event → List Event → Prop} {news : List Event} (free : ∀ e ∈ news, ∀ before, Q e before)
    (each : Each Q log) : Each Q (news ++ log) := by
  induction news with
  | nil => exact each
  | cons e news ih =>
    apply each_cons
    · exact free e List.mem_cons_self (news ++ log)
    · exact ih (fun e' mem => free e' (List.mem_cons_of_mem e mem))

/-- The event `a` is in the log, and `b` was before it. -/
def Follows (a b : Event) (log : List Event) : Prop := ∃ after before, log = after ++ a :: before ∧ b ∈ before

theorem follows_mem {a b : Event} (follows : Follows a b log) : a ∈ log ∧ b ∈ log := by
  obtain ⟨after, before, split, mem⟩ := follows
  rw [split]
  exact ⟨by simp, by simp [mem]⟩

theorem follows_cons {a b e : Event} : Follows a b (e :: log) ↔ (e = a ∧ b ∈ log) ∨ Follows a b log := by
  constructor
  · rintro ⟨after, before, split, mem⟩
    cases after with
    | nil =>
      cases split
      exact .inl ⟨rfl, mem⟩
    | cons first after =>
      cases split
      exact .inr ⟨after, before, rfl, mem⟩
  · rintro (⟨same, mem⟩ | ⟨after, before, split, mem⟩)
    · exact ⟨[], log, by rw [same]; rfl, mem⟩
    · exact ⟨e :: after, before, by rw [split]; rfl, mem⟩

theorem follows_append {a b : Event} {news : List Event} (absent : a ∉ news) :
    Follows a b (news ++ log) ↔ Follows a b log := by
  induction news with
  | nil => rfl
  | cons e news ih =>
    have other : e ≠ a := fun same => absent (by rw [same]; exact List.mem_cons_self)
    rw [List.cons_append, follows_cons, ih (fun mem => absent (List.mem_cons_of_mem e mem))]
    simp [other]

/-- An event that never has another of its kind before it is there once at most. -/
theorem each_once {p : Event → Bool}
    (each : Each (fun e before => p e = true → ∀ e' ∈ before, p e' = false) log) : log.countP p ≤ 1 := by
  induction log with
  | nil => simp
  | cons e log ih =>
    have older : Each (fun e before => p e = true → ∀ e' ∈ before, p e' = false) log := by
      intro after e' before split
      exact each (e :: after) e' before (by rw [split]; rfl)
    rw [List.countP_cons]
    split
    · rename_i kind
      have none_before : log.countP p = 0 := by
        apply List.countP_eq_zero.mpr
        intro e' mem
        simp [each [] e log rfl kind e' mem]
      omega
    · exact ih older

section Growth
variable {log' log'' : List Event} {p : Event → Bool}

def Grown (p : Event → Bool) (log log' : List Event) : Prop := ∃ news, log' = news ++ log ∧ ∀ e ∈ news, p e = true

theorem grown_refl (p : Event → Bool) (log : List Event) : Grown p log log := ⟨[], rfl, nofun⟩

theorem grown_cons {e : Event} (kind : p e = true) : Grown p log (e :: log) := ⟨[e], rfl, by simpa using kind⟩

theorem grown_trans (first : Grown p log log') (second : Grown p log' log'') : Grown p log log'' := by
  obtain ⟨news, grown, kind⟩ := first
  obtain ⟨later, grown', kind'⟩ := second
  refine ⟨later ++ news, by rw [grown', grown, List.append_assoc], ?_⟩
  intro e mem
  rcases List.mem_append.mp mem with new | old
  · exact kind' e new
  · exact kind e old

theorem grown_old (grown : Grown p log log') {e : Event} (mem : e ∈ log) : e ∈ log' := by
  obtain ⟨news, shape, -⟩ := grown
  rw [shape]
  exact List.mem_append_right news mem

theorem grown_mem (grown : Grown p log log') {e : Event} (other : p e = false) : e ∈ log' ↔ e ∈ log := by
  constructor
  · intro mem
    obtain ⟨news, shape, kind⟩ := grown
    rw [shape] at mem
    rcases List.mem_append.mp mem with new | old
    · rw [kind e new] at other
      cases other
    · exact old
  · exact grown_old grown

theorem grown_follows (grown : Grown p log log') {a b : Event} (other : p a = false) :
    Follows a b log' ↔ Follows a b log := by
  obtain ⟨news, shape, kind⟩ := grown
  rw [shape]
  apply follows_append
  intro mem
  rw [kind a mem] at other
  cases other

theorem grown_each {Q : Event → List Event → Prop} (grown : Grown p log log')
    (free : ∀ e, p e = true → ∀ before, Q e before) (each : Each Q log) : Each Q log' := by
  obtain ⟨news, shape, kind⟩ := grown
  rw [shape]
  exact each_append (fun e mem => free e (kind e mem)) each

theorem grown_countP {q : Event → Bool} (grown : Grown p log log') (apart : ∀ e, p e = true → q e = false) :
    log'.countP q = log.countP q := by
  obtain ⟨news, shape, kind⟩ := grown
  rw [shape, List.countP_append]
  have none : news.countP q = 0 := by
    apply List.countP_eq_zero.mpr
    intro e mem
    simp [apart e (kind e mem)]
  omega

end Growth

section Pairs
variable {start : Event} {isEnd : Event → Bool}

/-- What is started is ended once after it, and nothing else is ended. -/
def Paired (start : Event) (isEnd : Event → Bool) (log : List Event) : Prop :=
  (∀ after before, log = after ++ start :: before → after.countP isEnd = 1) ∧
    (start ∉ log → log.countP isEnd = 0)

theorem paired_iff [DecidableEq Event] (apart : isEnd start = false)
    (order : Each (fun e before => isEnd e = true → start ∈ before) log) (single : log.count start ≤ 1) :
    Paired start isEnd log ↔ log.countP isEnd = log.count start := by
  have counts : ∀ after before, log = after ++ start :: before →
      log.countP isEnd = after.countP isEnd ∧ log.count start = 1 := by
    intro after before shape
    have total : log.count start = after.count start + before.count start + 1 := by
      rw [shape, List.count_append, List.count_cons_self]
      omega
    have absent : start ∉ before := List.count_eq_zero.mp (by omega)
    have none : before.countP isEnd = 0 := by
      apply List.countP_eq_zero.mpr
      intro e mem kind
      obtain ⟨newer, older, split⟩ := List.append_of_mem mem
      have earlier := order (after ++ start :: newer) e older (by rw [shape, split]; simp) kind
      apply absent
      rw [split]
      exact List.mem_append_right newer (List.mem_cons_of_mem e earlier)
    constructor
    · rw [shape, List.countP_append, List.countP_cons_of_neg (by simp [apart]), none, Nat.add_zero]
    · omega
  by_cases started : start ∈ log
  · obtain ⟨after, before, shape⟩ := List.append_of_mem started
    obtain ⟨ends, once⟩ := counts after before shape
    constructor
    · intro paired
      rw [ends, once]
      exact paired.1 after before shape
    · intro same
      constructor
      · intro after' before' shape'
        rw [← (counts after' before' shape').1, same, once]
      · exact fun absent => absurd started absent
  · have none : log.count start = 0 := List.count_eq_zero.mpr started
    constructor
    · intro paired
      rw [none]
      exact paired.2 started
    · intro same
      constructor
      · intro after before shape
        apply absurd _ started
        rw [shape]
        simp
      · exact fun _ => same.trans none

end Pairs

theorem each_mono {Q Q' : Event → List Event → Prop} (implied : ∀ e before, Q e before → Q' e before)
    (each : Each Q log) : Each Q' log :=
  fun after e before split => implied e before (each after e before split)

end EventLogs
