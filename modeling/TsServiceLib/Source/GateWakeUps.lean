import TsServiceLib.Source.ConcurrencyGate
import Mathlib.Data.List.Nodup
import Mathlib.Data.Nat.Cast.Order.Ring

/-!
The wake-ups of the gate. While a live request is parked, the slots taken and
the wake-ups in flight for live requests have to cover the limit, or a slot
stays free beside it. A wake-up that a cancelled request consumes is the only
thing that uncovers the limit.
-/
namespace Sources
namespace Gate
open Transitions Numbers

section Covering
variable {e : Endpoint} {concurrency : Number} {g g' : Gate} {i : Nat}

def Below (concurrency : Number) (count : Nat) : Prop := (Number.finite count).lt concurrency = true

instance (concurrency : Number) (count : Nat) : Decidable (Below concurrency count) :=
  inferInstanceAs (Decidable ((Number.finite count).lt concurrency = true))

def LiveParked (g : Gate) : Prop := ∃ i ∈ g.waiters, i ∉ g.aborted

/-- The wake-ups in flight for live requests. -/
def wakeUps (g : Gate) : Nat := g.woken.countP fun i => decide (i ∉ g.aborted)

/-- A live request waits for a slot that is free, and nothing will wake it. -/
def Stalled (concurrency : Number) (g : Gate) : Prop :=
  LiveParked g ∧ Below concurrency g.active ∧ ∀ j ∈ g.woken, j ∈ g.aborted

/-- The slots taken and the wake-ups in flight cover the limit while a live
    request is parked. -/
def Covered (concurrency : Number) (g : Gate) : Prop :=
  LiveParked g → ¬Below concurrency (g.active + g.wakeUps)

theorem below_mono {m n : Nat} (le : m ≤ n) (below : Below concurrency n) : Below concurrency m := by
  unfold Below at *
  cases concurrency with
  | finite q =>
    simp only [Number.lt, decide_eq_true_eq] at *
    exact lt_of_le_of_lt (Nat.cast_le.mpr le) below
  | nan => cases below
  | negInfinity => cases below
  | posInfinity => rfl

/-- Below a whole limit there is room for one more. -/
theorem below_succ {n : Nat} (safe : concurrency.isSafeInteger = true) (below : Below concurrency n) :
    concurrency.lt (.finite (n + 1 : Nat)) = false := by
  cases concurrency with
  | finite q =>
    simp only [Number.isSafeInteger, Bool.and_eq_true, decide_eq_true_eq] at safe
    simp only [Below, Number.lt, decide_eq_true_eq, decide_eq_false_iff_not, not_lt] at *
    have whole : ((q.num : Int) : ℚ) = q := Rat.den_eq_one_iff q |>.mp safe.1
    rw [← whole] at below ⊢
    exact_mod_cast below
  | nan => cases safe
  | negInfinity => cases safe
  | posInfinity => cases safe

/-- What the gate keeps in every run. -/
structure Sound (concurrency : Number) (g : Gate) : Prop where
  counted : g.active = g.running.length
  bounded : concurrency.lt (.finite g.active) = false
  known : ∀ i, i ∈ g.waiters ∨ i ∈ g.woken → i < g.requests
  waiters_nodup : g.waiters.Nodup
  woken_nodup : g.woken.Nodup
  apart : ∀ i ∈ g.woken, i ∈ g.waiters → i ∈ g.aborted
  closed : g.stopped = true → g.waiters = []
  usable : g.waiters ≠ [] → concurrency.lt (.finite 0) = false ∧ concurrency.isSafeInteger = true

/-- A turn of the loop: the request takes a slot, parks or fails. -/
theorem acquire_cases (e : Endpoint) (concurrency : Number) (g : Gate) (i : Nat) :
    (∃ error, acquire e concurrency g i = g.fail i error ∧
      (g.stopped = true ∨ i ∈ g.aborted ∨ concurrency.lt (.finite 0) = true ∨
        concurrency.isSafeInteger = false)) ∨
    (i ∉ g.aborted ∧ concurrency.isSafeInteger = true ∧
      (concurrency = .finite 0 ∨ Below concurrency g.active) ∧
      acquire e concurrency g i = { g with active := g.active + 1, running := i :: g.running }) ∨
    (g.stopped = false ∧ i ∉ g.aborted ∧ concurrency.lt (.finite 0) = false ∧
      concurrency.isSafeInteger = true ∧ ¬Below concurrency g.active ∧
      acquire e concurrency g i = { g with waiters := g.waiters ++ [i] }) := by
  unfold acquire Below
  split
  · rename_i refused
    exact .inl ⟨_, rfl, refused.imp_right .inl⟩
  · rename_i live
    simp only [not_or, Bool.not_eq_true] at live
    split
    · rename_i range
      exact .inl ⟨_, rfl, .inr (.inr range)⟩
    · rename_i whole
      simp only [not_or, Bool.not_eq_true, Bool.not_eq_false] at whole
      split
      · rename_i room
        exact .inr (.inl ⟨live.2, whole.2, room, rfl⟩)
      · rename_i full
        simp only [not_or] at full
        exact .inr (.inr ⟨live.1, live.2, whole.1, whole.2, full.2, rfl⟩)

theorem fail_sound (sound : Sound concurrency g) (error : GateError) : Sound concurrency (g.fail i error) :=
  { sound with }

theorem acquire_sound (positive : Below concurrency 0) (sound : Sound concurrency g)
    (unparked : i ∉ g.waiters) (asleep : i ∉ g.woken) (known : i < g.requests) :
    Sound concurrency (acquire e concurrency g i) := by
  rcases acquire_cases e concurrency g i with ⟨error, same, _⟩ | ⟨_, whole, room, same⟩ |
      ⟨running, live, nonneg, whole, _, same⟩
  · rw [same]
    exact fail_sound sound error
  · rw [same]
    have below : Below concurrency g.active := by
      rcases room with zero | below
      · rw [zero, Below] at positive
        simp [Number.lt] at positive
      · exact below
    exact { sound with
      counted := by
        rw [List.length_cons, ← sound.counted]
      bounded := below_succ whole below }
  · rw [same]
    exact { sound with
      known := by
        intro j mem
        rcases mem with parked | woken
        · rcases List.mem_append.mp parked with before | last
          · exact sound.known j (.inl before)
          · rw [List.mem_singleton.mp last]
            exact known
        · exact sound.known j (.inr woken)
      waiters_nodup := by
        apply List.nodup_append.mpr
        refine ⟨sound.waiters_nodup, List.nodup_singleton i, ?_⟩
        intro a mem b single equal
        rw [List.mem_singleton] at single
        exact unparked (single ▸ equal ▸ mem)
      apart := by
        intro j woken parked
        rcases List.mem_append.mp parked with before | last
        · exact sound.apart j woken before
        · rw [List.mem_singleton.mp last] at woken
          exact absurd woken asleep
      closed := fun stopped => by
        rw [running] at stopped
        cases stopped
      usable := fun _ => ⟨nonneg, whole⟩ }

/-- The request counts as one more wake-up until it has gone on. -/
theorem acquire_covered (sound : Sound concurrency g)
    (live : i ∉ g.aborted → LiveParked g → ¬Below concurrency (g.active + g.wakeUps + 1))
    (cancelled : i ∈ g.aborted → Covered concurrency g) : Covered concurrency (acquire e concurrency g i) := by
  rcases acquire_cases e concurrency g i with ⟨error, same, why⟩ | ⟨unaborted, _, _, same⟩ |
      ⟨_, _, _, _, full, same⟩
  · rw [same]
    rintro ⟨j, parked, unaborted⟩
    have nonempty : g.waiters ≠ [] := List.ne_nil_of_mem parked
    rcases why with stopped | aborted | negative | broken
    · exact absurd (sound.closed stopped) nonempty
    · exact cancelled aborted ⟨j, parked, unaborted⟩
    · rw [(sound.usable nonempty).1] at negative
      cases negative
    · rw [(sound.usable nonempty).2] at broken
      cases broken
  · rw [same]
    intro parked
    have before := live unaborted parked
    have sum : g.active + 1 + g.wakeUps = g.active + g.wakeUps + 1 := by omega
    change ¬Below concurrency (g.active + 1 + g.wakeUps)
    rw [sum]
    exact before
  · rw [same]
    intro _ below
    exact full (below_mono (Nat.le_add_right _ _) below)

theorem wakeUps_wake (asleep : i ∉ g.woken) (live : i ∉ g.aborted) : (g.wake i).wakeUps = g.wakeUps + 1 := by
  simp [wake, asleep, wakeUps, live]

/-- A wake-up for a cancelled request is none for a live one. -/
theorem wakeUps_wake_aborted (aborted : i ∈ g.aborted) : (g.wake i).wakeUps = g.wakeUps := by
  unfold wake
  split
  · rfl
  · simp [wakeUps, aborted]

theorem wake_frame (g : Gate) (i : Nat) :
    g.wake i = { g with woken := if i ∈ g.woken then g.woken else g.woken ++ [i] } := by
  unfold wake
  split <;> rfl

@[simp] theorem wake_waiters (g : Gate) (i : Nat) : (g.wake i).waiters = g.waiters := by
  rw [wake_frame]

@[simp] theorem wake_aborted (g : Gate) (i : Nat) : (g.wake i).aborted = g.aborted := by
  rw [wake_frame]

@[simp] theorem wake_active (g : Gate) (i : Nat) : (g.wake i).active = g.active := by
  rw [wake_frame]

theorem wakeUps_wake_le (g : Gate) (i : Nat) : g.wakeUps ≤ (g.wake i).wakeUps := by
  unfold wakeUps
  rw [wake_frame]
  dsimp only
  split
  · exact Nat.le_refl _
  · rw [List.countP_append]
    exact Nat.le_add_right _ _

theorem mem_wake {j : Nat} : j ∈ (g.wake i).woken ↔ j ∈ g.woken ∨ j = i := by
  rw [wake_frame]
  dsimp only
  split
  · rename_i woken
    constructor
    · exact .inl
    · rintro (before | same)
      · exact before
      · rw [same]
        exact woken
  · simp

theorem wake_nodup (nodup : g.woken.Nodup) : (g.wake i).woken.Nodup := by
  rw [wake_frame]
  dsimp only
  split
  · exact nodup
  · rename_i asleep
    apply List.nodup_append.mpr
    refine ⟨nodup, List.nodup_singleton i, ?_⟩
    intro a mem b single equal
    rw [List.mem_singleton] at single
    exact asleep (single ▸ equal ▸ mem)

/-- A request is woken: it has left the queue, or its signal has fired. -/
theorem wake_sound (sound : Sound concurrency g) (known : i < g.requests)
    (left : i ∈ g.waiters → i ∈ g.aborted) : Sound concurrency (g.wake i) := by
  have frame := wake_frame g i
  have nodup := wake_nodup (i := i) sound.woken_nodup
  have members := fun j => mem_wake (g := g) (i := i) (j := j)
  rw [frame] at nodup members ⊢
  exact { sound with
    known := by
      intro j mem
      rcases mem with parked | woken
      · exact sound.known j (.inl parked)
      · rcases (members j).mp woken with before | same
        · exact sound.known j (.inr before)
        · rw [same]
          exact known
    woken_nodup := nodup
    apart := by
      intro j woken parked
      rcases (members j).mp woken with before | same
      · exact sound.apart j before parked
      · rw [same] at parked ⊢
        exact left parked }

end Covering

section Steps
variable {e : Endpoint} {concurrency : Number} {g g' : Gate} {i : Nat}

/-- A wake-up may be lost on a cancelled request only while the others in
    flight still cover the limit: where a slot is released to a cancelled head of
    the queue with a live request behind it, and where a request that has been
    woken is cancelled while a live one is parked. -/
def Careful (concurrency : Number) (g : Gate) : Action → Prop
  | .complete _ => ∀ head rest, g.waiters = head :: rest → head ∈ g.aborted →
      (∃ j ∈ rest, j ∉ g.aborted) → ¬Below concurrency (g.active - 1 + g.wakeUps)
  | .abort i => i ∈ g.woken → LiveParked g → ¬Below concurrency (g.active + (g.wakeUps - 1))
  | _ => True

/-- The gate with one more request, whose signal may have fired. -/
def counted (g : Gate) (aborted : Bool) : Gate :=
  { g with
    requests := g.requests + 1
    aborted := if aborted then g.requests :: g.aborted else g.aborted }

theorem counted_aborted (sound : Sound concurrency g) (aborted : Bool) {j : Nat}
    (mem : j ∈ g.waiters ∨ j ∈ g.woken) : j ∈ (g.counted aborted).aborted ↔ j ∈ g.aborted := by
  have other : j ≠ g.requests := Nat.ne_of_lt (sound.known j mem)
  simp only [counted]
  split
  · simp [other]
  · rfl

theorem counted_sound (sound : Sound concurrency g) (aborted : Bool) :
    Sound concurrency (g.counted aborted) :=
  { sound with
    known := fun j mem => Nat.lt_succ_of_lt (sound.known j mem)
    apart := fun j woken parked =>
      (counted_aborted sound aborted (.inl parked)).mpr (sound.apart j woken parked) }

theorem counted_covered (sound : Sound concurrency g) (covered : Covered concurrency g) (aborted : Bool) :
    Covered concurrency (g.counted aborted) := by
  have same : (g.counted aborted).wakeUps = g.wakeUps := by
    apply List.countP_congr
    intro j woken
    simp [counted_aborted sound aborted (.inr woken)]
  rintro ⟨j, parked, live⟩
  rw [same]
  exact covered ⟨j, parked, fun before => live ((counted_aborted sound aborted (.inl parked)).mpr before)⟩

theorem arrive_sound (positive : Below concurrency 0) (sound : Sound concurrency g) (aborted : Bool) :
    Sound concurrency (g.arrive e concurrency aborted) := by
  unfold arrive
  split
  · exact sound
  · apply acquire_sound positive (counted_sound sound aborted)
    · intro parked
      exact Nat.lt_irrefl _ (sound.known _ (.inl parked))
    · intro woken
      exact Nat.lt_irrefl _ (sound.known _ (.inr woken))
    · exact Nat.lt_succ_self _

theorem arrive_covered (sound : Sound concurrency g) (covered : Covered concurrency g) (aborted : Bool) :
    Covered concurrency (g.arrive e concurrency aborted) := by
  have before := counted_covered sound covered aborted
  unfold arrive
  split
  · exact covered
  · apply acquire_covered (counted_sound sound aborted)
    · intro _ parked below
      exact before parked (below_mono (Nat.le_succ _) below)
    · exact fun _ => before

/-- The gate as a woken request leaves its wait. -/
def leave (e : Endpoint) (g : Gate) (i : Nat) : Gate :=
  { g with
    woken := g.woken.erase i
    waiters := match e with
      | .kafka => g.waiters.erase i
      | .custom => g.waiters }

theorem resume_eq (g : Gate) (i : Nat) :
    g.resume e concurrency i = if i ∈ g.woken then some ((g.leave e i).acquire e concurrency i) else none := by
  unfold resume leave
  cases e <;> rfl

theorem leave_waiters (e : Endpoint) (g : Gate) (i : Nat) : (g.leave e i).waiters.Sublist g.waiters := by
  cases e with
  | kafka => exact List.erase_sublist
  | custom => exact List.Sublist.refl _

theorem leave_sound (sound : Sound concurrency g) : Sound concurrency (g.leave e i) where
  counted := sound.counted
  bounded := sound.bounded
  known := by
    intro j mem
    rcases mem with parked | woken
    · exact sound.known j (.inl ((leave_waiters e g i).subset parked))
    · exact sound.known j (.inr (List.mem_of_mem_erase woken))
  waiters_nodup := (leave_waiters e g i).nodup sound.waiters_nodup
  woken_nodup := sound.woken_nodup.erase i
  apart j woken parked :=
    sound.apart j (List.mem_of_mem_erase woken) ((leave_waiters e g i).subset parked)
  closed stopped := by
    have sublist := leave_waiters e g i
    rw [sound.closed stopped] at sublist
    exact List.sublist_nil.mp sublist
  usable nonempty := by
    apply sound.usable
    intro empty
    have sublist := leave_waiters e g i
    rw [empty] at sublist
    exact nonempty (List.sublist_nil.mp sublist)

/-- A live request that leaves its wait takes its wake-up with it. -/
theorem leave_wakeUps (woken : i ∈ g.woken) :
    g.wakeUps = (g.leave e i).wakeUps + (if i ∈ (g.leave e i).aborted then 0 else 1) := by
  have perm := (List.perm_cons_erase woken).countP_eq fun j => decide (j ∉ g.aborted)
  rw [List.countP_cons] at perm
  rw [wakeUps, perm]
  unfold wakeUps leave
  simp

theorem resume_sound (positive : Below concurrency 0) (sound : Sound concurrency g)
    (resumed : g.resume e concurrency i = some g') : Sound concurrency g' := by
  rw [resume_eq] at resumed
  split at resumed
  · rename_i woken
    cases resumed
    rcases acquire_cases e concurrency (g.leave e i) i with ⟨error, same, _⟩ | ⟨live, _⟩ | ⟨_, live, _⟩
    · rw [same]
      exact fail_sound (leave_sound sound) error
    all_goals
      apply acquire_sound positive (leave_sound sound)
      · intro parked
        exact live (sound.apart i woken ((leave_waiters e g i).subset parked))
      · exact sound.woken_nodup.not_mem_erase
      · exact sound.known i (.inr woken)
  · cases resumed

theorem resume_covered (sound : Sound concurrency g) (covered : Covered concurrency g)
    (resumed : g.resume e concurrency i = some g') : Covered concurrency g' := by
  rw [resume_eq] at resumed
  split at resumed
  · rename_i woken
    cases resumed
    have before : LiveParked (g.leave e i) → ¬Below concurrency (g.active + g.wakeUps) := by
      rintro ⟨j, parked, live⟩
      exact covered ⟨j, (leave_waiters e g i).subset parked, live⟩
    have sum := leave_wakeUps (e := e) woken
    apply acquire_covered (leave_sound sound)
    · intro live parked
      rw [if_neg live] at sum
      rw [sum] at before
      exact before parked
    · intro aborted parked
      rw [if_pos aborted] at sum
      rw [sum] at before
      exact before parked
  · cases resumed

/-- The gate as a request gives its slot back. -/
def released (g : Gate) (i : Nat) (rest : List Nat) : Gate :=
  { g with running := g.running.erase i, active := g.active - 1, waiters := rest }

theorem complete_cases (completed : g.complete i = some g') :
    i ∈ g.running ∧ ((g.waiters = [] ∧ g' = g.released i []) ∨
      ∃ head rest, g.waiters = head :: rest ∧ g' = (g.released i rest).wake head) := by
  unfold complete at completed
  split at completed
  · rename_i running
    refine ⟨running, ?_⟩
    dsimp only at completed
    split at completed
    · rename_i empty
      cases completed
      refine .inl ⟨empty, ?_⟩
      simp [released, empty]
    · rename_i head rest shape
      cases completed
      exact .inr ⟨head, rest, shape, rfl⟩
  · cases completed

theorem released_sound (sound : Sound concurrency g) (running : i ∈ g.running) {rest : List Nat}
    (sublist : rest.Sublist g.waiters) : Sound concurrency (g.released i rest) where
  counted := by
    simp only [released, List.length_erase_of_mem running, sound.counted]
  bounded := by
    have bounded := sound.bounded
    simp only [released]
    cases concurrency with
    | finite q =>
      simp only [Number.lt, decide_eq_false_iff_not, not_lt] at *
      exact le_trans (Nat.cast_le.mpr (Nat.sub_le _ _)) bounded
    | nan => rfl
    | negInfinity => cases bounded
    | posInfinity => rfl
  known j mem := sound.known j (mem.imp_left fun parked => sublist.subset parked)
  waiters_nodup := sublist.nodup sound.waiters_nodup
  woken_nodup := sound.woken_nodup
  apart j woken parked := sound.apart j woken (sublist.subset parked)
  closed stopped := by
    rw [sound.closed stopped] at sublist
    exact List.sublist_nil.mp sublist
  usable nonempty := by
    apply sound.usable
    intro empty
    rw [empty] at sublist
    exact nonempty (List.sublist_nil.mp sublist)

theorem complete_sound (sound : Sound concurrency g) (completed : g.complete i = some g') :
    Sound concurrency g' := by
  obtain ⟨running, shape⟩ := complete_cases completed
  rcases shape with ⟨_, same⟩ | ⟨head, rest, shape, same⟩
  · rw [same]
    exact released_sound sound running (List.nil_sublist _)
  · have sublist : rest.Sublist g.waiters := by
      rw [shape]
      exact List.sublist_cons_self head rest
    have nodup := sound.waiters_nodup
    rw [shape] at nodup
    rw [same]
    apply wake_sound (released_sound sound running sublist)
    · exact sound.known head (.inl (by simp [shape]))
    · intro again
      exact absurd again (List.nodup_cons.mp nodup).1

theorem complete_covered (sound : Sound concurrency g) (covered : Covered concurrency g)
    (careful : Careful concurrency g (.complete i)) (completed : g.complete i = some g') :
    Covered concurrency g' := by
  obtain ⟨running, shape⟩ := complete_cases completed
  have positive : 0 < g.active := by
    rw [sound.counted]
    exact List.length_pos_of_mem running
  rcases shape with ⟨_, same⟩ | ⟨head, rest, shape, same⟩
  · rw [same]
    rintro ⟨j, parked, _⟩
    cases parked
  · rw [same]
    rintro ⟨j, parked, live⟩
    rw [wake_waiters] at parked
    rw [wake_aborted] at live
    rw [wake_active]
    by_cases aborted : head ∈ g.aborted
    · -- the wake-up is lost on the head of the queue
      have still := careful head rest shape aborted ⟨j, parked, live⟩
      intro below
      exact still (below_mono (Nat.add_le_add_left (wakeUps_wake_le (g.released i rest) head) _) below)
    · have asleep : head ∉ (g.released i rest).woken := by
        intro woken
        exact aborted (sound.apart head woken (by simp [shape]))
      have more := wakeUps_wake (g := g.released i rest) asleep aborted
      have sum : (g.released i rest).active + ((g.released i rest).wakeUps + 1) = g.active + g.wakeUps := by
        change g.active - 1 + (g.wakeUps + 1) = g.active + g.wakeUps
        omega
      rw [more, sum]
      have behind : j ∈ g.waiters := by
        rw [shape]
        exact List.mem_cons_of_mem _ parked
      exact covered ⟨j, behind, live⟩

/-- The signal has fired, and the waiter has not been told. -/
def fired (g : Gate) (i : Nat) : Gate := { g with aborted := i :: g.aborted }

theorem abort_cases (aborts : g.abort e i = some g') :
    i < g.requests ∧ i ∉ g.aborted ∧ (g' = g.fired i ∨ (i ∈ g.waiters ∧ g' = (g.fired i).wake i)) := by
  unfold abort at aborts
  split at aborts
  · rename_i fresh
    refine ⟨fresh.1, fresh.2, ?_⟩
    dsimp only at aborts
    split at aborts
    · rename_i listens
      cases aborts
      exact .inr ⟨listens.2, rfl⟩
    · cases aborts
      exact .inl rfl
  · cases aborts

theorem fired_sound (sound : Sound concurrency g) : Sound concurrency (g.fired i) :=
  { sound with apart := fun j woken parked => List.mem_cons_of_mem _ (sound.apart j woken parked) }

theorem abort_sound (sound : Sound concurrency g) (aborts : g.abort e i = some g') :
    Sound concurrency g' := by
  obtain ⟨known, _, same | ⟨_, same⟩⟩ := abort_cases aborts
  · rw [same]
    exact fired_sound sound
  · rw [same]
    exact wake_sound (fired_sound sound) known fun _ => List.mem_cons_self

/-- A cancelled request takes one wake-up with it, if it had been woken. -/
theorem fired_wakeUps (sound : Sound concurrency g) (unaborted : i ∉ g.aborted) :
    g.wakeUps = (g.fired i).wakeUps + (if i ∈ g.woken then 1 else 0) := by
  have split_count : ∀ woken : List Nat, woken.countP (fun j => decide (j ∉ g.aborted)) =
      woken.countP (fun j => decide (j ∉ i :: g.aborted)) + woken.count i := by
    intro woken
    induction woken with
    | nil => simp
    | cons j rest ih =>
      simp only [List.countP_cons, List.count_cons]
      by_cases same : j = i
      · have before : decide (i ∉ g.aborted) = true := by simp [unaborted]
        have after : decide (i ∉ i :: g.aborted) = false := by simp
        rw [same, before, after]
        simp only [beq_self_eq_true, if_true, Bool.false_eq_true, if_false]
        omega
      · have live : decide (j ∉ i :: g.aborted) = decide (j ∉ g.aborted) := by simp [same]
        have other : (j == i) = false := by simp [same]
        rw [live, other]
        simp only [Bool.false_eq_true, if_false]
        omega
  have once : g.woken.count i = if i ∈ g.woken then 1 else 0 := by
    split
    · rename_i woken
      exact List.count_eq_one_of_mem sound.woken_nodup woken
    · rename_i asleep
      exact List.count_eq_zero_of_not_mem asleep
  rw [← once]
  exact split_count g.woken

theorem abort_covered (sound : Sound concurrency g) (covered : Covered concurrency g)
    (careful : Careful concurrency g (.abort i)) (aborts : g.abort e i = some g') :
    Covered concurrency g' := by
  obtain ⟨_, unaborted, became⟩ := abort_cases aborts
  have fired_covered : Covered concurrency (g.fired i) := by
    rintro ⟨j, parked, live⟩ below
    have parked_before : LiveParked g := ⟨j, parked, fun before => live (List.mem_cons_of_mem _ before)⟩
    have lost := fired_wakeUps sound unaborted
    split at lost
    · rename_i woken
      apply careful woken parked_before
      apply below_mono ?_ below
      change g.active + (g.wakeUps - 1) ≤ g.active + (g.fired i).wakeUps
      omega
    · exact covered parked_before (below_mono (Nat.add_le_add_left (Nat.le_of_eq lost) _) below)
  rcases became with same | ⟨_, same⟩
  · rw [same]
    exact fired_covered
  · rw [same]
    rintro ⟨j, parked, live⟩ below
    rw [wake_waiters] at parked
    rw [wake_aborted] at live
    rw [wake_active] at below
    exact fired_covered ⟨j, parked, live⟩
      (below_mono (Nat.add_le_add_left (wakeUps_wake_le (g.fired i) i) _) below)

theorem wakeAll_sound {waiting : List Nat} (sound : Sound concurrency g) (empty : g.waiters = [])
    (known : ∀ i ∈ waiting, i < g.requests) :
    Sound concurrency (waiting.foldl wake g) ∧ (waiting.foldl wake g).waiters = [] := by
  induction waiting generalizing g with
  | nil => exact ⟨sound, empty⟩
  | cons i rest ih =>
    have first : i < g.requests := known i List.mem_cons_self
    have woken : Sound concurrency (g.wake i) :=
      wake_sound sound first fun parked => by
        rw [empty] at parked
        cases parked
    apply ih woken
    · rw [wake_waiters]
      exact empty
    · intro j mem
      rw [wake_frame]
      exact known j (List.mem_cons_of_mem _ mem)

theorem stop_sound (sound : Sound concurrency g) :
    Sound concurrency (g.stop e) ∧ (g.stop e).waiters = [] := by
  have closed : Sound concurrency { g with stopped := true, waiters := [] } :=
    { sound with
      known := fun j mem => by
        rcases mem with parked | woken
        · cases parked
        · exact sound.known j (.inr woken)
      waiters_nodup := List.nodup_nil
      apart := fun j _ parked => by cases parked
      closed := fun _ => rfl
      usable := fun nonempty => absurd rfl nonempty }
  obtain ⟨woken, empty⟩ := wakeAll_sound closed rfl fun i parked => sound.known i (.inl parked)
  unfold stop
  cases e with
  | kafka => exact ⟨woken, empty⟩
  | custom =>
    refine ⟨{ woken with apart := ?_ }, empty⟩
    intro j _ parked
    rw [empty] at parked
    cases parked

theorem start_sound (sound : Sound concurrency g) (starts : g.start = some g') :
    Sound concurrency g' ∧ g'.waiters = [] := by
  unfold start at starts
  split at starts
  · rename_i drained
    cases starts
    exact ⟨{ sound with closed := fun stopped => by cases stopped }, drained.2.1⟩
  · cases starts

theorem step_sound (positive : Below concurrency 0) (sound : Sound concurrency g) {a : Action}
    (stepped : step e concurrency g a = some g') : Sound concurrency g' := by
  cases a with
  | arrive aborted =>
    cases stepped
    exact arrive_sound positive sound aborted
  | resume i => exact resume_sound positive sound stepped
  | complete i => exact complete_sound sound stepped
  | abort i => exact abort_sound sound stepped
  | stop =>
    cases stepped
    exact (stop_sound sound).1
  | start => exact (start_sound sound stepped).1

theorem empty_covered (empty : g.waiters = []) : Covered concurrency g := by
  rintro ⟨j, parked, _⟩
  rw [empty] at parked
  cases parked

theorem step_covered (sound : Sound concurrency g) (covered : Covered concurrency g) {a : Action}
    (careful : Careful concurrency g a) (stepped : step e concurrency g a = some g') :
    Covered concurrency g' := by
  cases a with
  | arrive aborted =>
    cases stepped
    exact arrive_covered sound covered aborted
  | resume i => exact resume_covered sound covered stepped
  | complete i => exact complete_covered sound covered careful stepped
  | abort i => exact abort_covered sound covered careful stepped
  | stop =>
    cases stepped
    exact empty_covered (stop_sound sound).2
  | start => exact empty_covered (start_sound sound stepped).2

theorem initial_sound (positive : Below concurrency 0) : Sound concurrency {} where
  counted := rfl
  bounded := by
    unfold Below at positive
    cases concurrency with
    | finite q =>
      simp only [Number.lt, decide_eq_true_eq, decide_eq_false_iff_not, not_lt] at *
      exact le_of_lt positive
    | nan => cases positive
    | negInfinity => cases positive
    | posInfinity => rfl
  known i mem := by rcases mem with parked | woken <;> contradiction
  waiters_nodup := List.nodup_nil
  woken_nodup := List.nodup_nil
  apart i woken := by cases woken
  closed stopped := by cases stopped
  usable nonempty := absurd rfl nonempty

theorem reached_sound {ok : Gate → Action → Prop} (positive : Below concurrency 0)
    (reached : Reached e concurrency ok g) : Sound concurrency g :=
  steps_invariant (Sound concurrency) (fun _ _ _ sound _ stepped => step_sound positive sound stepped) reached
    (initial_sound positive)

theorem reached_covered (positive : Below concurrency 0)
    (reached : Reached e concurrency (Careful concurrency) g) : Covered concurrency g := by
  have both : Sound concurrency g ∧ Covered concurrency g :=
    steps_invariant (fun g => Sound concurrency g ∧ Covered concurrency g)
      (fun _ _ _ held careful stepped =>
        ⟨step_sound positive held.1 stepped, step_covered held.1 held.2 careful stepped⟩)
      reached ⟨initial_sound positive, empty_covered rfl⟩
  exact both.2

/-- Without a live wake-up in flight, a covered gate has no free slot. -/
theorem covered_not_stalled (covered : Covered concurrency g) : ¬Stalled concurrency g := by
  rintro ⟨parked, below, cancelled⟩
  have none_live : g.wakeUps = 0 := by
    apply List.countP_eq_zero.mpr
    intro j woken
    simp [cancelled j woken]
  apply covered parked
  rw [none_live]
  exact below

/-- At most `concurrency` requests are active, and no live one is left waiting. -/
def KeepsLimit (concurrency : Number) (g : Gate) : Prop :=
  concurrency.lt (.finite g.running.length) = false ∧ ¬Stalled concurrency g

/- A positive limit is kept in every run, and no live request is left waiting in
   the runs in which no wake-up that is needed is lost on a cancelled request. -/
theorem gate_keeps_limit (positive : Below concurrency 0)
    (reached : Reached e concurrency (Careful concurrency) g) : KeepsLimit concurrency g := by
  have sound := reached_sound positive reached
  constructor
  · rw [← sound.counted]
    exact sound.bounded
  · exact covered_not_stalled (reached_covered positive reached)

def carefulCheck (concurrency : Number) (g : Gate) : Action → Bool
  | .complete _ =>
    match g.waiters with
    | [] => true
    | head :: rest => decide (head ∉ g.aborted) || rest.all (fun j => decide (j ∈ g.aborted)) ||
        decide (¬Below concurrency (g.active - 1 + g.wakeUps))
  | .abort i => decide (i ∉ g.woken) || g.waiters.all (fun j => decide (j ∈ g.aborted)) ||
      decide (¬Below concurrency (g.active + (g.wakeUps - 1)))
  | _ => true

theorem carefulCheck_sound (concurrency : Number) (g : Gate) (a : Action)
    (passed : carefulCheck concurrency g a = true) : Careful concurrency g a := by
  cases a with
  | complete i =>
    rintro head rest shape aborted ⟨j, parked, live⟩ below
    simp only [carefulCheck, shape, Bool.or_eq_true, decide_eq_true_eq, List.all_eq_true] at passed
    rcases passed with (fresh | all) | full
    · exact fresh aborted
    · exact live (all j parked)
    · exact full below
  | abort i =>
    rintro woken ⟨j, parked, live⟩ below
    simp only [carefulCheck, Bool.or_eq_true, decide_eq_true_eq, List.all_eq_true] at passed
    rcases passed with (asleep | all) | full
    · exact asleep woken
    · exact live (all j parked)
    · exact full below
  | arrive aborted => trivial
  | resume i => trivial
  | stop => trivial
  | start => trivial

/-- One request runs and two are parked. -/
def parked : List Action := [.arrive false, .arrive false, .arrive false]

theorem gate_keeps_limit_cancelled :
    ∃ g, Reached .kafka (.finite 1) (Careful (.finite 1)) g ∧ g.failed = [(1, .reason)] ∧
      g.running = [2] ∧ KeepsLimit (.finite 1) g := by
  have runs : (execWhere (step .kafka (.finite 1)) (carefulCheck (.finite 1)) {}
      (parked ++ [.abort 1, .resume 1, .complete 0, .resume 2])).map (fun g => (g.failed, g.running)) =
        some ([(1, .reason)], [2]) := by
    decide +kernel
  obtain ⟨g, run, facts⟩ := Option.map_eq_some_iff.mp runs
  obtain ⟨failed, running⟩ := Prod.mk.inj facts
  have reached : Reached .kafka (.finite 1) (Careful (.finite 1)) g :=
    execWhere_steps (carefulCheck_sound (.finite 1)) run
  exact ⟨g, reached, failed, running, gate_keeps_limit (by decide +kernel) reached⟩

/-- The first of the two parked requests is cancelled and then woken by the one
    that ends. -/
theorem cancelled_head_stalls (e : Endpoint) : ¬∀ g, Reached e (.finite 1) Any g → KeepsLimit (.finite 1) g := by
  intro all
  have runs : (exec (step e (.finite 1)) {} (parked ++ [.abort 1, .complete 0])).map (fun g =>
      (g.waiters, g.aborted, g.active, g.woken)) = some ([2], [1], 0, [1]) := by
    cases e <;> decide +kernel
  obtain ⟨g, run, facts⟩ := Option.map_eq_some_iff.mp runs
  simp only [Prod.mk.injEq] at facts
  obtain ⟨waiters, aborted, active, woken⟩ := facts
  apply (all g (exec_steps run)).2
  refine ⟨⟨2, by simp [waiters], by simp [aborted]⟩, ?_, ?_⟩
  · rw [active]
    decide +kernel
  · simp [woken, aborted]

/- Both endpoints leave a live request waiting beside a free slot. -/
theorem wake_up_lost_on_cancelled :
    (¬∀ g, Reached .kafka (.finite 1) Any g → KeepsLimit (.finite 1) g) ∧
      ¬∀ g, Reached .custom (.finite 1) Any g → KeepsLimit (.finite 1) g :=
  ⟨cancelled_head_stalls .kafka, cancelled_head_stalls .custom⟩

end Steps

section Exactness
variable {e : Endpoint} {concurrency : Number} {g g' : Gate} {i : Nat}

/-- Only wake-ups that are in flight go on. -/
def OnlyResumes (_ : Gate) (a : Action) : Prop := ∃ i, a = .resume i

/-- A gate that is not covered stalls when the wake-ups in flight have gone on. -/
theorem uncovered_stalls (positive : Below concurrency 0) (sound : Sound concurrency g)
    (uncovered : ¬Covered concurrency g) :
    ∃ g', Steps (step e concurrency) OnlyResumes g g' ∧ Stalled concurrency g' := by
  induction count : g.wakeUps generalizing g with
  | zero =>
    unfold Covered at uncovered
    push Not at uncovered
    obtain ⟨parked, below⟩ := uncovered
    refine ⟨g, .refl g, parked, ?_, ?_⟩
    · rw [count] at below
      exact below
    · intro j woken
      have none_live := List.countP_eq_zero.mp count j woken
      simpa using none_live
  | succ n ih =>
    unfold Covered at uncovered
    push Not at uncovered
    obtain ⟨⟨j, parked, live⟩, below⟩ := uncovered
    obtain ⟨i, woken, unaborted⟩ := List.countP_pos_iff.mp (by rw [← wakeUps, count]; exact Nat.succ_pos n)
    simp only [decide_eq_true_eq] at unaborted
    have nonempty : g.waiters ≠ [] := List.ne_nil_of_mem parked
    have sum : g.wakeUps = (g.leave e i).wakeUps + 1 := by
      have left := leave_wakeUps (e := e) woken
      rwa [if_neg (show i ∉ (g.leave e i).aborted from unaborted)] at left
    -- the woken request finds a free slot, and takes it
    have room : Below concurrency (g.leave e i).active := below_mono (Nat.le_add_right _ _) below
    obtain ⟨next, takes⟩ : ∃ next, (g.leave e i).acquire e concurrency i = next ∧
        next = { g.leave e i with active := g.active + 1, running := i :: g.running } := by
      rcases acquire_cases e concurrency (g.leave e i) i with ⟨error, _, why⟩ | ⟨_, _, _, same⟩ |
          ⟨_, _, _, _, full, _⟩
      · rcases why with stopped | aborted | negative | broken
        · exact absurd (sound.closed stopped) nonempty
        · exact absurd aborted unaborted
        · rw [(sound.usable nonempty).1] at negative
          cases negative
        · rw [(sound.usable nonempty).2] at broken
          cases broken
      · exact ⟨_, same, rfl⟩
      · exact absurd room full
    have stepped : step e concurrency g (.resume i) = some next := by
      simp only [step]
      rw [resume_eq, if_pos woken, takes.1]
    have still_parked : j ∈ (g.leave e i).waiters := by
      have other : j ≠ i := by
        intro same
        rw [same] at parked
        exact unaborted (sound.apart i woken parked)
      cases e with
      | kafka => exact (List.mem_erase_of_ne other).mpr parked
      | custom => exact parked
    have counted' : next.wakeUps = n := by
      rw [takes.2]
      change (g.leave e i).wakeUps = n
      omega
    have uncovered' : ¬Covered concurrency next := by
      intro covered
      rw [takes.2] at covered
      apply covered ⟨j, still_parked, live⟩
      apply below_mono ?_ below
      change g.active + 1 + (g.leave e i).wakeUps ≤ g.active + g.wakeUps
      omega
    obtain ⟨g', run, stalled⟩ := ih (step_sound positive sound stepped) uncovered' counted'
    exact ⟨g', steps_trans (steps_single ⟨i, rfl⟩ stepped) run, stalled⟩

theorem careless_uncovers (sound : Sound concurrency g) {a : Action} (careless : ¬Careful concurrency g a)
    (stepped : step e concurrency g a = some g') : ¬Covered concurrency g' := by
  intro covered
  apply careless
  cases a with
  | complete i =>
    rintro head rest shape aborted ⟨j, parked, live⟩ below
    obtain ⟨_, ⟨empty, _⟩ | ⟨head', rest', shape', same⟩⟩ := complete_cases stepped
    · rw [empty] at shape
      cases shape
    · rw [shape] at shape'
      cases shape'
      rw [same] at covered
      have lost := wakeUps_wake_aborted (g := g.released i rest) (i := head) aborted
      apply covered ⟨j, by simpa [released] using parked, by simpa [released] using live⟩
      rw [wake_active, lost]
      exact below
  | abort i =>
    rintro woken ⟨j, parked, live⟩ below
    obtain ⟨_, unaborted, same | ⟨waiting, _⟩⟩ := abort_cases stepped
    · have lost := fired_wakeUps sound unaborted
      rw [if_pos woken] at lost
      rw [same] at covered
      have other : j ≠ i := by
        intro same
        rw [same] at parked
        exact unaborted (sound.apart i woken parked)
      apply covered ⟨j, parked, by simp [fired, other, live]⟩
      rw [lost] at below
      exact below
    · exact absurd (sound.apart i woken waiting) unaborted
  | arrive aborted => trivial
  | resume i => trivial
  | stop => trivial
  | start => trivial

/-- The condition is exact: after a step that is not careful, the gate stalls
    when the wake-ups in flight have gone on. -/
theorem careless_stalls (positive : Below concurrency 0) (sound : Sound concurrency g) {a : Action}
    (careless : ¬Careful concurrency g a) (stepped : step e concurrency g a = some g') :
    ∃ stuck, Steps (step e concurrency) OnlyResumes g' stuck ∧ Stalled concurrency stuck :=
  uncovered_stalls positive (step_sound positive sound stepped) (careless_uncovers sound careless stepped)

end Exactness

end Gate

end Sources
