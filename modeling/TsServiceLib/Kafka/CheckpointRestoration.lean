import TsServiceLib.Kafka.LeaseLog

/-!
The restoration of a checkpoint is all or nothing. Between any two of its
awaits a rebalance, a failure or a stop may come; what carries it through is
that its phase always shows how far it is, and that a generation has at most
one restoration. So the entries given to `assign` are those of the whole
assignment, and the leases of a generation are made all at once or not at all.
-/
namespace Kafka
open Transitions Numbers OrderedMaps

/-- One partition looked up: its offset in the checkpoint and its watermarks. -/
structure Lookup where
  partition : TopicPartition
  next : Int
  low : Int
  high : Int

namespace Lookup

def answer (x : Lookup) : Nat × Number × Number :=
  (x.partition.partition, .finite x.low, .finite x.high)

/-- The entry given to `assign`, exactly at the offset of the checkpoint. -/
def entry (x : Lookup) : Assignment :=
  ⟨x.partition.topic, x.partition.partition, some (.finite x.next)⟩

def Retained (offsets : CheckpointOffsets) (x : Lookup) : Prop :=
  offsets.get (.finite x.partition.partition) = some x.next ∧ x.low ≤ x.next ∧ x.next ≤ x.high

end Lookup

def TopicPartition.entry (tp : TopicPartition) : Assignment := ⟨tp.topic, tp.partition, none⟩

def LookedUp (offsets : CheckpointOffsets) (partitions : List TopicPartition)
    (answers : List (Nat × Number × Number)) (chosen : List Assignment) : Prop :=
  ∃ lookups : List Lookup, (∀ x ∈ lookups, x.Retained offsets) ∧
    lookups.map Lookup.partition = partitions ∧ lookups.map Lookup.answer = answers ∧
    lookups.map Lookup.entry = chosen

/-- The entries are those of the whole assignment. -/
def Restoration.Justifies (R : Restoration) (restoring : Bool) (chosen : List Assignment) : Prop :=
  match restoring with
  | true => ∃ offsets, R.checkpoint = some offsets ∧ LookedUp offsets R.partitions R.answers chosen
  | false => chosen = R.partitions.map TopicPartition.entry

/-- How far a restoration is, by its phase. -/
def Restoration.Progressed (R : Restoration) (restoring : Bool) : Prop :=
  match R.phase with
  | .awaitingProvider => R.answers = []
  | .querying offsets tp next rest chosen =>
    restoring = true ∧ R.checkpoint = some offsets ∧ validateCheckpoint (some offsets) = true ∧
      offsets.get (.finite tp.partition) = some next ∧
      ∃ before, R.partitions = before ++ tp :: rest ∧ LookedUp offsets before R.answers chosen
  | .settling chosen _ => R.Justifies restoring chosen
  | _ => True

def Event.leaseOf (generation : Nat) : Event → Option Nat
  | leaseCreated _ partition g => if g = generation then some partition else none
  | _ => none

/-- The partitions that got a lease for the generation, in order. -/
def created (generation : Nat) (history : List Event) : List Nat :=
  (history.filterMap (Event.leaseOf generation)).reverse

section Loop
variable (s : State) (generation : Nat)

/-- Without a checkpoint the loop runs to its end at once. -/
theorem restoreLoop_plain (chosen : List Assignment) (partitions : List TopicPartition) :
    s.restoreLoop generation none chosen partitions = .ended .overtaken ∨
    s.restoreLoop generation none chosen partitions = .rejected ∨
    s.restoreLoop generation none chosen partitions =
      .settling (chosen ++ partitions.map TopicPartition.entry) s.commits := by
  induction partitions generalizing chosen with
  | nil =>
    unfold State.restoreLoop
    split
    · exact .inl rfl
    · exact .inr (.inr (by simp))
  | cons tp rest ih =>
    unfold State.restoreLoop
    split
    · exact .inl rfl
    · split
      · exact .inr (.inl rfl)
      · have next := ih (chosen ++ [tp.entry])
        rw [List.append_assoc] at next
        exact next

theorem restoreLoop_checkpoint (offsets : CheckpointOffsets) (chosen : List Assignment)
    (partitions : List TopicPartition) :
    s.restoreLoop generation (some offsets) chosen partitions = .ended .overtaken ∨
    s.restoreLoop generation (some offsets) chosen partitions = .rejected ∨
    (partitions = [] ∧
      s.restoreLoop generation (some offsets) chosen partitions = .settling chosen s.commits) ∨
    ∃ tp rest next, partitions = tp :: rest ∧ offsets.get (.finite tp.partition) = some next ∧
      s.restoreLoop generation (some offsets) chosen partitions =
        .querying offsets tp next rest chosen := by
  cases partitions with
  | nil =>
    unfold State.restoreLoop
    split
    · exact .inl rfl
    · exact .inr (.inr (.inl ⟨rfl, rfl⟩))
  | cons tp rest =>
    unfold State.restoreLoop
    split
    · exact .inl rfl
    · split
      · exact .inr (.inl rfl)
      · dsimp only
        split
        · exact .inr (.inl rfl)
        · rename_i next found
          exact .inr (.inr (.inr ⟨tp, rest, next, rfl, found, rfl⟩))

end Loop

section Answers
variable {s : State} {r : Nat}

/-- The loop, resumed after some lookups, shows how far it is. -/
theorem looked_progressed {R : Restoration} {offsets : CheckpointOffsets}
    {before rest : List TopicPartition} {chosen : List Assignment} (restoring : s.restoring = true)
    (checkpoint : R.checkpoint = some offsets) (valid : validateCheckpoint (some offsets) = true)
    (parts : R.partitions = before ++ rest) (looked : LookedUp offsets before R.answers chosen)
    (phase : R.phase = s.restoreLoop R.generation (some offsets) chosen rest) :
    R.Progressed s.restoring := by
  unfold Restoration.Progressed
  rcases restoreLoop_checkpoint s R.generation offsets chosen rest with
    ended | rejected | ⟨done, settling⟩ | ⟨tp, tail, next, more, found, querying⟩
  · rw [phase, ended]
    trivial
  · rw [phase, rejected]
    trivial
  · rw [phase, settling, restoring]
    subst done
    rw [List.append_nil] at parts
    exact ⟨offsets, checkpoint, parts ▸ looked⟩
  · rw [phase, querying]
    exact ⟨restoring, checkpoint, valid, found, before, more ▸ parts, looked⟩

theorem provided_progressed (answer : Option (Option CheckpointOffsets))
    (awaiting : (s.restorations r).phase = .awaitingProvider)
    (progressed : (s.restorations r).Progressed s.restoring) :
    ((s.provided r answer).restorations r).Progressed s.restoring := by
  have unanswered : (s.restorations r).answers = [] := by
    simpa only [Restoration.Progressed, awaiting] using progressed
  cases answer with
  | none => simp [State.provided, State.setRestoration, Restoration.Progressed]
  | some selected =>
    simp only [State.provided, Function.update_self]
    split
    · trivial
    · rename_i valid
      split
      · trivial
      · rename_i mode
        rw [Decidable.not_not] at mode
        cases selected with
        | none =>
          rcases restoreLoop_plain s (s.restorations r).generation [] (s.restorations r).partitions with
            ended | rejected | settling
          · simp [Restoration.Progressed, ended]
          · simp [Restoration.Progressed, rejected]
          · simp only [Restoration.Progressed, settling, ← mode, Option.isSome_none,
              Restoration.Justifies, List.nil_append]
        | some offsets =>
          refine looked_progressed mode.symm rfl ?_ (List.nil_append _).symm ?_ rfl
          · simpa using valid
          · exact ⟨[], by simp, rfl, unanswered.symm, rfl⟩

theorem withinBounds_whole {next : Int} {low high : Number} (within : withinBounds next low high = true) :
    ∃ l h : Int, low = .finite l ∧ high = .finite h ∧ l ≤ next ∧ next ≤ h := by
  have whole : ∀ {x : Number}, x.isSafeInteger = true → x = .finite (x.toBigint : Int) := by
    intro x safe
    cases x with
    | nan | negInfinity | posInfinity => cases safe
    | finite q =>
      simp only [Number.isSafeInteger, Bool.and_eq_true, decide_eq_true_eq] at safe
      have integral : (q.num : ℚ) = q := Rat.coe_int_num_of_den_eq_one safe.1
      rw [Number.toBigint, integral]
  simp only [withinBounds, Bool.and_eq_true, decide_eq_true_eq] at within
  obtain ⟨⟨⟨⟨low_safe, high_safe⟩, _⟩, above⟩, below⟩ := within
  exact ⟨_, _, whole low_safe, whole high_safe, above, below⟩

theorem checkpoint_exact {offsets : CheckpointOffsets} {tp : TopicPartition} {next : Int}
    (valid : validateCheckpoint (some offsets) = true)
    (found : offsets.get (.finite tp.partition) = some next) : Number.ofBigint next = .finite next := by
  have entry := (OrderedMap.get_eq_some_iff _ _ _).mp found
  have checked := List.all_eq_true.mp valid _ entry
  simp only [representable, Bool.and_eq_true, decide_eq_true_eq] at checked
  exact Number.ofBigint_safe checked.1.2 checked.2

theorem watermarks_progressed {offsets : CheckpointOffsets} {tp : TopicPartition} {next : Int}
    {rest : List TopicPartition} {chosen : List Assignment} (answer : Option (Number × Number))
    (querying : (s.restorations r).phase = .querying offsets tp next rest chosen)
    (progressed : (s.restorations r).Progressed s.restoring) :
    ((s.watermarks r offsets tp next rest chosen answer).restorations r).Progressed s.restoring := by
  simp only [Restoration.Progressed, querying] at progressed
  obtain ⟨restoring, checkpoint, valid, found, before, parts, lookups, retained, rfl, answered, picked⟩ :=
    progressed
  cases answer with
  | none => simp [State.watermarks, State.setRestoration, Restoration.Progressed]
  | some bounds =>
    obtain ⟨low, high⟩ := bounds
    simp only [State.watermarks, Function.update_self]
    split
    · trivial
    · rename_i inside
      obtain ⟨l, h, rfl, rfl, above, below⟩ := withinBounds_whole (by simpa using inside)
      have more : (s.restorations r).partitions = (lookups.map Lookup.partition ++ [tp]) ++ rest := by
        simpa using parts
      refine looked_progressed restoring checkpoint valid more ?_ rfl
      · refine ⟨lookups ++ [⟨tp, next, l, h⟩], ?_, by simp, ?_, ?_⟩
        · intro x mem
          rcases List.mem_append.mp mem with old | new
          · exact retained x old
          · rw [List.mem_singleton] at new
            subst new
            exact ⟨found, above, below⟩
        · simp [answered, Lookup.answer]
        · simp [picked, Lookup.entry, checkpoint_exact valid found]

end Answers

def Event.assigns : Event → Bool
  | assignCalled .. => true
  | leaseCreated .. => true
  | _ => false

/-- Where a restoration stands once it has called `assign`. -/
def RestorePhase.After (phase : RestorePhase) (threw : Bool) : Prop :=
  match threw with
  | true => phase = .rejected ∨ ∃ ending, ending ≠ .assigned ∧ phase = .ended ending
  | false => phase = .ended .assigned

structure Restored (s : State) : Prop where
  unused : ∀ r, s.nextRestoration ≤ r → (s.restorations r).phase = .ended .overtaken
  generations : ∀ r < s.nextRestoration, (s.restorations r).generation ≤ s.generation
  distinct : ∀ r < s.nextRestoration, ∀ r' < s.nextRestoration,
    (s.restorations r).generation = (s.restorations r').generation → r = r'
  progressed : ∀ r < s.nextRestoration, (s.restorations r).Progressed s.restoring
  called : ∀ g chosen threw, .assignCalled g chosen threw ∈ s.history →
    ∃ r < s.nextRestoration, (s.restorations r).generation = g ∧
      (s.restorations r).Justifies s.restoring chosen ∧ (s.restorations r).phase.After threw
  assigned : ∀ r < s.nextRestoration, (s.restorations r).phase = .ended .assigned →
    (∃ chosen, .assignCalled (s.restorations r).generation chosen false ∈ s.history) ∧
      created (s.restorations r).generation s.history =
        (s.restorations r).partitions.map TopicPartition.partition
  leases : ∀ l p g, .leaseCreated l p g ∈ s.history → ∃ r < s.nextRestoration,
    (s.restorations r).generation = g ∧ (s.restorations r).phase = .ended .assigned

theorem created_append (g : Nat) (later earlier : List Event) :
    created g (later ++ earlier) = created g earlier ++ created g later := by
  simp only [created, List.filterMap_append, List.reverse_append]

theorem created_other {g : Nat} {events : List Event} (others : ∀ l p, .leaseCreated l p g ∉ events) :
    created g events = [] := by
  rw [List.eq_nil_iff_forall_not_mem]
  intro p mem
  simp only [created, List.mem_reverse, List.mem_filterMap] at mem
  obtain ⟨e, within, found⟩ := mem
  cases e with
  | leaseCreated l p' g' =>
    simp only [Event.leaseOf, Option.ite_none_right_eq_some] at found
    exact others l p' (found.1 ▸ within)
  | _ => cases found

theorem created_assignCalled (g g' : Nat) (chosen : List Assignment) (threw : Bool)
    (earlier : List Event) : created g (.assignCalled g' chosen threw :: earlier) = created g earlier :=
  rfl

/-- The restorations and their mode. -/
def State.recovery (s : State) := (s.restorations, s.nextRestoration, s.restoring)

section Invariant
variable {s t : State}

theorem restored_frame (restored : Restored s) (same : t.recovery = s.recovery)
    (generation : s.generation ≤ t.generation)
    (grown : ∃ quiet, t.history = quiet ++ s.history ∧ ∀ e ∈ quiet, e.assigns = false) :
    Restored t := by
  simp only [State.recovery, Prod.mk.injEq] at same
  obtain ⟨table, count, mode⟩ := same
  obtain ⟨quiet, history, plain⟩ := grown
  have old : ∀ {e : Event}, e.assigns = true → e ∈ t.history → e ∈ s.history := by
    intro e assigns mem
    rw [history, List.mem_append] at mem
    rcases mem with new | old
    · rw [plain e new] at assigns
      cases assigns
    · exact old
  refine ⟨?_, ?_, ?_, ?_, ?_, ?_, ?_⟩ <;> simp only [table, count, mode]
  · exact restored.unused
  · intro r known
    exact Nat.le_trans (restored.generations r known) generation
  · exact restored.distinct
  · exact restored.progressed
  · intro g chosen threw mem
    exact restored.called g chosen threw (old rfl mem)
  · intro r known ended
    obtain ⟨⟨chosen, mem⟩, made⟩ := restored.assigned r known ended
    refine ⟨⟨chosen, ?_⟩, ?_⟩
    · rw [history]
      exact List.mem_append_right _ mem
    · have nothing : created (s.restorations r).generation quiet = [] := by
        apply created_other
        intro l p new
        cases plain _ new
      rw [history, created_append, nothing, List.append_nil, made]
  · intro l p g mem
    exact restored.leases l p g (old rfl mem)

theorem unfinished_known {r : Nat} (restored : Restored s)
    (unfinished : ∀ ending, (s.restorations r).phase ≠ .ended ending) : r < s.nextRestoration := by
  rcases Nat.lt_or_ge r s.nextRestoration with known | free
  · exact known
  · exact absurd (restored.unused r free) (unfinished _)

/-- A restoration that has not ended goes on, without having created leases. -/
theorem update_restored {r : Nat} {R : Restoration} (restored : Restored s)
    (unfinished : ∀ ending, (s.restorations r).phase ≠ .ended ending)
    (same : R.generation = (s.restorations r).generation) (progressed : R.Progressed s.restoring)
    (without : R.phase ≠ .ended .assigned)
    (kept : (s.restorations r).phase = .rejected → (∃ ending, R.phase = .ended ending) ∧
      ∀ chosen, (s.restorations r).Justifies s.restoring chosen → R.Justifies s.restoring chosen) :
    Restored { s with restorations := Function.update s.restorations r R } := by
  have generation : ∀ n, (Function.update s.restorations r R n).generation =
      (s.restorations n).generation := by
    intro n
    rcases eq_or_ne n r with rfl | other
    · rw [Function.update_self, same]
    · rw [Function.update_of_ne other]
  refine ⟨?_, ?_, ?_, ?_, ?_, ?_, ?_⟩ <;> simp only [generation]
  · intro n free
    have known := unfinished_known restored unfinished
    rw [Function.update_of_ne (by omega)]
    exact restored.unused n free
  · exact restored.generations
  · exact restored.distinct
  · intro n known
    rcases eq_or_ne n r with rfl | other
    · rw [Function.update_self]
      exact progressed
    · rw [Function.update_of_ne other]
      exact restored.progressed n known
  · intro g chosen threw mem
    obtain ⟨n, known, of, justified, after⟩ := restored.called g chosen threw mem
    refine ⟨n, known, of, ?_⟩
    rcases eq_or_ne n r with rfl | other
    · rw [Function.update_self]
      cases threw with
      | false => exact absurd after (unfinished _)
      | true =>
        rcases after with rejected | ⟨ending, _, ended⟩
        · obtain ⟨⟨ending, ended⟩, justifies⟩ := kept rejected
          refine ⟨justifies chosen justified, .inr ⟨ending, ?_, ended⟩⟩
          rintro rfl
          exact without ended
        · exact absurd ended (unfinished ending)
    · rw [Function.update_of_ne other]
      exact ⟨justified, after⟩
  · intro n known ended
    rcases eq_or_ne n r with rfl | other
    · rw [Function.update_self] at ended
      exact absurd ended without
    · rw [Function.update_of_ne other] at ended ⊢
      exact restored.assigned n known ended
  · intro l p g mem
    obtain ⟨n, known, of, ended⟩ := restored.leases l p g mem
    have other : n ≠ r := by
      rintro rfl
      exact unfinished _ ended
    refine ⟨n, known, of, ?_⟩
    rw [Function.update_of_ne other]
    exact ended

theorem invalidate_restored (restored : Restored s) : Restored s.invalidate := by
  apply restored_frame (t := s.invalidate) restored rfl (Nat.le_succ _)
  refine ⟨s.leased.map .revoked ++ [.invalidated], by simp [State.invalidate], ?_⟩
  intro e mem
  simp only [List.mem_append, List.mem_map, List.mem_singleton] at mem
  rcases mem with ⟨l, _, rfl⟩ | rfl
  · rfl
  · rfl

theorem rebalanced_restored (restored : Restored s) (partitions : List TopicPartition) :
    Restored (s.invalidate.beginRestoration partitions) := by
  have older : ∀ r < s.nextRestoration, (s.restorations r).generation < s.generation + 1 := by
    intro r known
    exact Nat.lt_succ_of_le (restored.generations r known)
  have logged : Restored (s.invalidate.log (.rebalanced (s.generation + 1) partitions)) := by
    refine restored_frame (invalidate_restored restored) rfl (Nat.le_refl _) ?_
    exact ⟨[.rebalanced (s.generation + 1) partitions], rfl, by simp [Event.assigns]⟩
  have kept : ∀ r < s.nextRestoration,
      (s.invalidate.beginRestoration partitions).restorations r = s.restorations r :=
    fun r known => Function.update_of_ne (Nat.ne_of_lt known) _ _
  have new : (s.invalidate.beginRestoration partitions).restorations s.nextRestoration =
      ⟨s.generation + 1, partitions, .awaitingProvider, none, []⟩ := Function.update_self ..
  have cases_known : ∀ r, r < s.nextRestoration + 1 → r < s.nextRestoration ∨ r = s.nextRestoration :=
    fun r known => Nat.lt_succ_iff_lt_or_eq.mp known
  refine ⟨?_, ?_, ?_, ?_, ?_, ?_, ?_⟩
  · intro r free
    have free' : s.nextRestoration + 1 ≤ r := free
    have same : (s.invalidate.beginRestoration partitions).restorations r = s.restorations r :=
      Function.update_of_ne (by show r ≠ s.nextRestoration; omega) _ _
    rw [same]
    exact restored.unused r (by omega)
  · intro r known
    rcases cases_known r known with old | rfl
    · rw [kept r old]
      exact Nat.le_of_lt (older r old)
    · rw [new]
      exact Nat.le_refl _
  · intro r known r' known' same
    rcases cases_known r known with old | rfl <;> rcases cases_known r' known' with old' | rfl
    · rw [kept r old, kept r' old'] at same
      exact restored.distinct r old r' old' same
    · rw [kept r old, new] at same
      exact absurd same (Nat.ne_of_lt (older r old))
    · rw [kept r' old', new] at same
      exact absurd same.symm (Nat.ne_of_lt (older r' old'))
    · rfl
  · intro r known
    rcases cases_known r known with old | rfl
    · rw [kept r old]
      exact restored.progressed r old
    · rw [new]
      rfl
  · intro g chosen threw mem
    obtain ⟨r, known, of⟩ := logged.called g chosen threw mem
    refine ⟨r, Nat.lt_succ_of_lt known, ?_⟩
    rw [kept r known]
    exact of
  · intro r known ended
    rcases cases_known r known with old | rfl
    · rw [kept r old] at ended ⊢
      exact logged.assigned r old ended
    · rw [new] at ended
      cases ended
  · intro l p g mem
    obtain ⟨r, known, of⟩ := logged.leases l p g mem
    refine ⟨r, Nat.lt_succ_of_lt known, ?_⟩
    rw [kept r known]
    exact of

theorem threw_restored {r : Nat} (chosen : List Assignment) (restored : Restored s)
    (known : r < s.nextRestoration) (rejected : (s.restorations r).phase = .rejected)
    (justified : (s.restorations r).Justifies s.restoring chosen) :
    Restored (s.log (.assignCalled (s.restorations r).generation chosen true)) := by
  refine ⟨restored.unused, restored.generations, restored.distinct, restored.progressed, ?_, ?_, ?_⟩
  · intro g entries threw mem
    rcases List.mem_cons.mp mem with new | old
    · cases new
      exact ⟨r, known, rfl, justified, .inl rejected⟩
    · exact restored.called g entries threw old
  · intro n small ended
    obtain ⟨⟨entries, mem⟩, made⟩ := restored.assigned n small ended
    exact ⟨⟨entries, List.mem_cons_of_mem _ mem⟩, made⟩
  · intro l p g mem
    rcases List.mem_cons.mp mem with new | old
    · cases new
    · exact restored.leases l p g old

theorem addLeases_same (generation : Nat) (partitions : List TopicPartition) (s : State) :
    let t := partitions.foldl (State.addLease generation) s
    t.restorations = s.restorations ∧ t.nextRestoration = s.nextRestoration ∧
      t.restoring = s.restoring ∧ t.generation = s.generation := by
  induction partitions generalizing s with
  | nil => exact ⟨rfl, rfl, rfl, rfl⟩
  | cons tp rest ih => exact ih (s.addLease generation tp)

theorem addLeases_history (generation : Nat) (partitions : List TopicPartition) (s : State) :
    ∃ events, (partitions.foldl (State.addLease generation) s).history = events ++ s.history ∧
      (∀ e ∈ events, ∃ l p, e = .leaseCreated l p generation) ∧
      created generation events = partitions.map TopicPartition.partition := by
  induction partitions generalizing s with
  | nil => exact ⟨[], rfl, by simp, rfl⟩
  | cons tp rest ih =>
    obtain ⟨events, grown, leases, made⟩ := ih (s.addLease generation tp)
    refine ⟨events ++ [.leaseCreated s.nextLease tp.partition generation], ?_, ?_, ?_⟩
    · rw [List.foldl_cons, grown, List.append_assoc]
      rfl
    · intro e mem
      rcases List.mem_append.mp mem with old | new
      · exact leases e old
      · exact ⟨_, _, List.mem_singleton.mp new⟩
    · rw [created_append, made]
      simp [created, Event.leaseOf]

theorem unfinished_leaseless {r : Nat} (restored : Restored s) (known : r < s.nextRestoration)
    (before : (s.restorations r).phase ≠ .ended .assigned) :
    created (s.restorations r).generation s.history = [] := by
  apply created_other
  intro l p made
  obtain ⟨n, small, same, ended⟩ := restored.leases l p _ made
  rw [restored.distinct n small r known same] at ended
  exact before ended

theorem returned_restored {r : Nat} {chosen : List Assignment} {events : List Event}
    (restored : Restored s) (unfinished : ∀ ending, (s.restorations r).phase ≠ .ended ending)
    (calm : (s.restorations r).phase ≠ .rejected)
    (justified : (s.restorations r).Justifies s.restoring chosen)
    (same : t.nextRestoration = s.nextRestoration ∧ t.restoring = s.restoring ∧
      t.generation = s.generation)
    (table : t.restorations =
      Function.update s.restorations r { s.restorations r with phase := .ended .assigned })
    (history : t.history =
      events ++ .assignCalled (s.restorations r).generation chosen false :: s.history)
    (leases : ∀ e ∈ events, ∃ l p, e = .leaseCreated l p (s.restorations r).generation)
    (made : created (s.restorations r).generation events =
      (s.restorations r).partitions.map TopicPartition.partition) : Restored t := by
  have known := unfinished_known restored unfinished
  have fresh := unfinished_leaseless restored known (unfinished _)
  obtain ⟨count, mode, generation⟩ := same
  have generations : ∀ n, (t.restorations n).generation = (s.restorations n).generation := by
    intro n
    rw [table]
    rcases eq_or_ne n r with rfl | other
    · rw [Function.update_self]
    · rw [Function.update_of_ne other]
  have here : t.restorations r = { s.restorations r with phase := .ended .assigned } := by
    rw [table, Function.update_self]
  have elsewhere : ∀ n, n ≠ r → t.restorations n = s.restorations n := by
    intro n other
    rw [table, Function.update_of_ne other]
  have members : ∀ e ∈ t.history, (∃ l p, e = .leaseCreated l p (s.restorations r).generation) ∨
      e = .assignCalled (s.restorations r).generation chosen false ∨ e ∈ s.history := by
    intro e mem
    rw [history, List.mem_append, List.mem_cons] at mem
    exact mem.imp (leases e) id
  refine ⟨?_, ?_, ?_, ?_, ?_, ?_, ?_⟩ <;> simp only [count, mode, generation, generations]
  · intro n free
    rw [elsewhere n (by omega)]
    exact restored.unused n free
  · exact restored.generations
  · exact restored.distinct
  · intro n small
    rcases eq_or_ne n r with rfl | other
    · rw [here]
      trivial
    · rw [elsewhere n other]
      exact restored.progressed n small
  · intro g entries threw mem
    rcases members _ mem with ⟨l, p, wrong⟩ | new | old
    · cases wrong
    · cases new
      exact ⟨r, known, rfl, by rw [here]; exact justified, by rw [here]; rfl⟩
    · obtain ⟨n, small, of, justifies, after⟩ := restored.called g entries threw old
      have other : n ≠ r := by
        rintro rfl
        cases threw with
        | false => exact unfinished _ after
        | true =>
          rcases after with rejected | ⟨ending, _, ended⟩
          · exact calm rejected
          · exact unfinished _ ended
      refine ⟨n, small, of, ?_⟩
      rw [elsewhere n other]
      exact ⟨justifies, after⟩
  · intro n small ended
    rcases eq_or_ne n r with rfl | other
    · refine ⟨⟨chosen, ?_⟩, ?_⟩
      · rw [history]
        simp
      · rw [here, history, created_append, created_assignCalled, fresh, made, List.nil_append]
    · rw [elsewhere n other] at ended ⊢
      obtain ⟨⟨entries, mem⟩, formed⟩ := restored.assigned n small ended
      refine ⟨⟨entries, ?_⟩, ?_⟩
      · rw [history]
        simp [mem]
      · have nothing : created (s.restorations n).generation events = [] := by
          apply created_other
          intro l p mem
          obtain ⟨l', p', new⟩ := leases _ mem
          simp only [Event.leaseCreated.injEq] at new
          exact other (restored.distinct n small r known new.2.2)
        rw [history, created_append, created_assignCalled, nothing, List.append_nil, formed]
  · intro l p g mem
    rcases members _ mem with ⟨l', p', new⟩ | wrong | old
    · cases new
      exact ⟨r, known, rfl, by rw [here]⟩
    · cases wrong
    · obtain ⟨n, small, of, ended⟩ := restored.leases l p g old
      have other : n ≠ r := by
        rintro rfl
        exact unfinished _ ended
      refine ⟨n, small, of, ?_⟩
      rw [elsewhere n other]
      exact ended

theorem restoreLoop_unassigned (s : State) (generation : Nat) (offsets : Option CheckpointOffsets)
    (chosen : List Assignment) (partitions : List TopicPartition) :
    s.restoreLoop generation offsets chosen partitions ≠ .ended .assigned := by
  cases offsets with
  | none =>
    rcases restoreLoop_plain s generation chosen partitions with phase | phase | phase <;> simp [phase]
  | some offsets =>
    rcases restoreLoop_checkpoint s generation offsets chosen partitions with
      phase | phase | ⟨_, phase⟩ | ⟨_, _, _, _, _, phase⟩ <;> simp [phase]

theorem move_restored {promise : Promise} (restored : Restored s) (move : Move promise s t) :
    Restored t := by
  cases move with
  | invalidate => exact invalidate_restored restored
  | rebalanced partitions => exact rebalanced_restored restored partitions
  | fails | cancel | stop | book | turn | dropped | received | launch | acknowledged | awaited |
    finished | soughtBack | overtakenReady | overtakenHandling | overtakenRejected | rejects | ends =>
    exact restored_frame restored rfl (Nat.le_refl _) ⟨[], rfl, by simp⟩
  | called | handler | mark | commit | committed | sought | soughtInVain | stored | resumes =>
    exact restored_frame restored rfl (Nat.le_refl _) ⟨[_], rfl, by simp [Event.assigns]⟩
  | provided r answer awaiting =>
    have unfinished : ∀ ending, (s.restorations r).phase ≠ .ended ending := by simp [awaiting]
    have progressed := provided_progressed answer awaiting
      (restored.progressed r (unfinished_known restored unfinished))
    have calm : (s.restorations r).phase ≠ .rejected := by simp [awaiting]
    cases answer with
    | none =>
      exact update_restored restored unfinished rfl trivial (by simp) (fun wrong => absurd wrong calm)
    | some selected =>
      simp only [State.provided, Function.update_self] at progressed
      refine update_restored restored unfinished rfl progressed ?_ (fun wrong => absurd wrong calm)
      dsimp only
      split
      · simp
      · split
        · simp
        · apply restoreLoop_unassigned
  | watermarks r offsets tp next rest chosen answer querying =>
    have unfinished : ∀ ending, (s.restorations r).phase ≠ .ended ending := by simp [querying]
    have progressed := watermarks_progressed answer querying
      (restored.progressed r (unfinished_known restored unfinished))
    have calm : (s.restorations r).phase ≠ .rejected := by simp [querying]
    cases answer with
    | none =>
      exact update_restored restored unfinished rfl trivial (by simp) (fun wrong => absurd wrong calm)
    | some bounds =>
      simp only [State.watermarks, Function.update_self] at progressed
      refine update_restored restored unfinished rfl progressed ?_ (fun wrong => absurd wrong calm)
      dsimp only
      split
      · simp
      · apply restoreLoop_unassigned
  | restorationEnds r ending without unfinished =>
    refine update_restored restored unfinished rfl trivial ?_ ?_
    · simpa using without
    · exact fun _ => ⟨⟨ending, rfl⟩, fun _ justified => justified⟩
  | assignThrew r chosen commits settling newest =>
    have unfinished : ∀ ending, (s.restorations r).phase ≠ .ended ending := by simp [settling]
    have known := unfinished_known restored unfinished
    have justified : (s.restorations r).Justifies s.restoring chosen := by
      simpa only [Restoration.Progressed, settling] using restored.progressed r known
    have rejected : Restored (s.setRestoration r .rejected) := by
      refine update_restored restored unfinished rfl trivial (by simp) ?_
      rw [settling]
      simp
    have here : (s.setRestoration r .rejected).restorations r = { s.restorations r with phase := .rejected } :=
      Function.update_self ..
    have logged := threw_restored chosen rejected known (by rw [here]) (by rw [here]; exact justified)
    rw [here] at logged
    exact logged
  | assigned r chosen commits settling newest between =>
    have unfinished : ∀ ending, (s.restorations r).phase ≠ .ended ending := by simp [settling]
    have justified : (s.restorations r).Justifies s.restoring chosen := by
      simpa only [Restoration.Progressed, settling] using
        restored.progressed r (unfinished_known restored unfinished)
    obtain ⟨table, count, mode, generation⟩ := addLeases_same (s.restorations r).generation
      (s.restorations r).partitions (s.log (.assignCalled (s.restorations r).generation chosen false))
    obtain ⟨events, history, leases, made⟩ := addLeases_history (s.restorations r).generation
      (s.restorations r).partitions (s.log (.assignCalled (s.restorations r).generation chosen false))
    refine returned_restored restored unfinished (by simp [settling]) justified
      ⟨count, mode, generation⟩ ?_ history leases made
    simp only [State.setRestoration, table]
    rfl

theorem initial_restored (topic : String) (restoring : Bool) : Restored (initial topic restoring) where
  unused _ _ := rfl
  generations _ known := absurd known (Nat.not_lt_zero _)
  distinct _ known := absurd known (Nat.not_lt_zero _)
  progressed _ known := absurd known (Nat.not_lt_zero _)
  called _ _ _ mem := absurd mem List.not_mem_nil
  assigned _ known := absurd known (Nat.not_lt_zero _)
  leases _ _ _ mem := absurd mem List.not_mem_nil

theorem reachable_restored (reach : Reachable s) : Restored s := by
  obtain ⟨topic, restoring, run⟩ := reachable_reaches reach
  exact steps_moves Restored (fun _ _ held move => move_restored held move) run
    (initial_restored topic restoring)

/- Restoration is all or nothing: `assign` is called only for the newest
   generation and with the whole assignment, when restoring each partition at
   its checkpoint offset within its watermarks; a generation has its leases,
   one for each partition, exactly when that call returned, and a restoration
   that was rejected, has failed or was overtaken has none. -/
theorem restoration_all_or_nothing (reach : Reachable s) :
    (∀ later earlier g chosen threw, s.history = later ++ .assignCalled g chosen threw :: earlier →
      g = earlier.count .invalidated ∧
      ∃ r < s.nextRestoration, (s.restorations r).generation = g ∧
        (∀ r' < s.nextRestoration, (s.restorations r').generation = g → r' = r) ∧
        (s.restorations r).Justifies s.restoring chosen) ∧
    (∀ r < s.nextRestoration,
      ((∃ chosen, .assignCalled (s.restorations r).generation chosen false ∈ s.history) →
        created (s.restorations r).generation s.history =
          (s.restorations r).partitions.map TopicPartition.partition) ∧
      ((s.restorations r).phase = .rejected ∨ (s.restorations r).phase = .ended .overtaken ∨
        (s.restorations r).phase = .ended .failed →
          ∀ l p, .leaseCreated l p (s.restorations r).generation ∉ s.history)) ∧
    ∀ l p g, .leaseCreated l p g ∈ s.history → ∃ chosen, .assignCalled g chosen false ∈ s.history := by
  have restored := reachable_restored reach
  have lawful := (reaches_logged (reachable_reaches reach)).lawful
  refine ⟨?_, ?_, ?_⟩
  · intro later earlier g chosen threw split
    rw [split] at lawful
    have newest := (lawful_split lawful).2.1 g rfl
    obtain ⟨r, known, same, justified, _⟩ := restored.called g chosen threw (by rw [split]; simp)
    refine ⟨newest, r, known, same, ?_, justified⟩
    intro r' known' same'
    exact restored.distinct r' known' r known (same'.trans same.symm)
  · intro r known
    constructor
    · rintro ⟨chosen, mem⟩
      obtain ⟨n, small, same, _, ended⟩ := restored.called _ chosen false mem
      obtain rfl := restored.distinct n small r known same
      exact (restored.assigned n known ended).2
    · intro stopped l p mem
      obtain ⟨n, small, same, ended⟩ := restored.leases l p _ mem
      obtain rfl := restored.distinct n small r known same
      rw [ended] at stopped
      simp at stopped
  · intro l p g mem
    obtain ⟨r, known, rfl, ended⟩ := restored.leases l p g mem
    exact (restored.assigned r known ended).1

end Invariant

/-- A restoring consumer is given two partitions, looks them both up and gets
    them; a later assignment whose checkpoint misses its partition fails. -/
def restoredPair : List Action :=
  let checkpoint : CheckpointOffsets := (OrderedMap.empty.set (.finite 0) 7).set (.finite 1) 3
  [.rebalance .assign [⟨"topic", 0⟩, ⟨"topic", 1⟩] false, .provided 0 (some (some checkpoint)),
    .watermarks 0 (some (.finite 5, .finite 9)), .watermarks 0 (some (.finite 3, .finite 3)),
    .assign 0 false, .rebalance .assign [⟨"topic", 2⟩] false, .provided 1 (some (some checkpoint)),
    .restorationCaught 1]

theorem restoration_all_or_nothing_pair : ∃ s, Reachable s ∧ s.restoring = true ∧
    .assignCalled 1 [⟨"topic", 0, some (.finite 7)⟩, ⟨"topic", 1, some (.finite 3)⟩] false ∈ s.history ∧
    created 1 s.history = [0, 1] ∧ ∀ l p, .leaseCreated l p 2 ∉ s.history := by
  obtain ⟨s, run, mode, count, called, first, second, failed⟩ : ∃ s,
      exec step (initial "topic" true) restoredPair = some s ∧ s.restoring = true ∧
      s.nextRestoration = 2 ∧
      .assignCalled 1 [⟨"topic", 0, some (.finite 7)⟩, ⟨"topic", 1, some (.finite 3)⟩] false ∈ s.history ∧
      (s.restorations 0).partitions = [⟨"topic", 0⟩, ⟨"topic", 1⟩] ∧
      ((s.restorations 0).generation = 1 ∧ (s.restorations 1).generation = 2) ∧
      (s.restorations 1).phase = .ended .failed :=
    ⟨_, rfl, rfl, rfl, by decide, rfl, ⟨rfl, rfl⟩, rfl⟩
  have reach := exec_reachable run
  obtain ⟨_, settled, _⟩ := restoration_all_or_nothing reach
  have made := (settled 0 (by omega)).1 ⟨_, second.1 ▸ called⟩
  have none_made := (settled 1 (by omega)).2 (.inr (.inr failed))
  rw [second.1, first] at made
  rw [second.2] at none_made
  exact ⟨s, reach, mode, called, made, none_made⟩

end Kafka
