import TsServiceLib.Pool.IndexedHeap
import Mathlib.Data.Set.Insert
import Mathlib.Logic.Function.Basic

/-!
Whole runs of the indexed heap, with the loops as the source has them: a loop
takes turn after turn until it breaks, and a turn may throw. The keys of the
entries may change between the operations, and the key of one entry just before
it is repaired. Beside the heap stands the set that it is to hold.
-/
namespace Pools.IndexedHeap
open OrderedMaps HeapOrder Function

/-- What one turn of a loop comes to. -/
inductive Turn (S : Type) where
  | rests
  | throws
  | goes (next : S)

/-- The loop comes to its end there, and no turn throws. -/
inductive Ends {S : Type} (turn : S → Turn S) : S → S → Prop where
  | rests {s : S} (rest : turn s = .rests) : Ends turn s s
  | goes {s t u : S} (next : turn s = .goes t) (later : Ends turn t u) : Ends turn s u

theorem ends_unique {S : Type} {turn : S → Turn S} {s t u : S} (first : Ends turn s t) (second : Ends turn s u) : t = u := by
  induction first with
  | rests rest =>
    cases second with
    | rests _ => rfl
    | goes next _ =>
      rw [rest] at next
      cases next
  | goes next _ ih =>
    cases second with
    | rests rest =>
      rw [next] at rest
      cases rest
    | goes other later =>
      rw [next] at other
      cases other
      exact ih later

section Loops
variable {T : Type} [DecidableEq T] (compare : T → T → Int)

/-- `swap`, which throws where there is no entry. -/
def checkedSwap (h : IndexedHeap T) (a b : Nat) : Turn (IndexedHeap T × Nat) :=
  match h.items[a]?, h.items[b]? with
  | some _, some _ => .goes (h.swap a b, b)
  | _, _ => .throws

def upTurn (s : IndexedHeap T × Nat) : Turn (IndexedHeap T × Nat) :=
  if s.2 = 0 then .rests
  else
    match s.1.items[s.2]?, s.1.items[parent s.2]? with
    | some item, some other => if 0 ≤ compare item other then .rests else checkedSwap s.1 s.2 (parent s.2)
    | _, _ => .rests

def downTurn (s : IndexedHeap T × Nat) : Turn (IndexedHeap T × Nat) :=
  match s.1.items[s.2 * 2 + 1]? with
  | none => .rests
  | some left =>
    match s.1.items[s.2]?, s.1.items[lesserChild compare s.1 s.2 left]? with
    | some item, some smallest =>
      if compare item smallest ≤ 0 then .rests else checkedSwap s.1 s.2 (lesserChild compare s.1 s.2 left)
    | _, _ => .rests

inductive Fixes (h : IndexedHeap T) (item : T) : IndexedHeap T → Prop where
  | absent (missing : h.positions.get item = none) : Fixes h item h
  | found {index : Nat} {risen sunk : IndexedHeap T × Nat} (place : h.positions.get item = some index)
      (rises : Ends (upTurn compare) (h, index) risen) (sinks : Ends (downTurn compare) risen sunk) : Fixes h item sunk.1

inductive Removes (h : IndexedHeap T) (item : T) : IndexedHeap T → Prop where
  | absent (missing : h.positions.get item = none) : Removes h item h
  | last {index : Nat} (place : h.positions.get item = some index)
      (short : ¬index < (h.dropped item).items.length) : Removes h item (h.dropped item)
  | inner {index : Nat} {last : T} {fixed : IndexedHeap T} (place : h.positions.get item = some index)
      (tail : h.items.getLast? = some last) (long : index < (h.dropped item).items.length)
      (fixes : Fixes compare ((h.dropped item).overwrite index last) last fixed) : Removes h item fixed

variable {compare} {h : IndexedHeap T}

theorem checkedSwap_goes {a b : Nat} {x y : T} (left : h.items[a]? = some x) (right : h.items[b]? = some y) :
    checkedSwap h a b = .goes (h.swap a b, b) := by
  simp only [checkedSwap, left, right]

theorem up_ends (turns : Nat) {index : Nat} (enough : index ≤ turns) :
    Ends (upTurn compare) (h, index) (up compare turns h index) := by
  induction turns generalizing h index with
  | zero =>
    apply Ends.rests
    simp only [upTurn]
    rw [if_pos (by omega)]
  | succ turns ih =>
    unfold up
    split
    · rename_i root
      exact .rests (by simp only [upTurn]; rw [if_pos root])
    · rename_i interior
      split
      · rename_i item other here above
        split
        · rename_i rest
          exact .rests (by simp only [upTurn, here, above, rest, if_neg interior, if_true])
        · rename_i earlier
          have lower := parent_lt (Nat.pos_of_ne_zero interior)
          apply Ends.goes _ (ih (by omega))
          simp only [upTurn, here, above, if_neg interior, if_neg earlier]
          exact checkedSwap_goes here above
      · rename_i missing
        apply Ends.rests
        simp only [upTurn, if_neg interior]

theorem down_ends (turns : Nat) {index : Nat} (enough : h.items.length ≤ turns + index) :
    ∃ rest, Ends (downTurn compare) (h, index) (down compare turns h index, rest) := by
  induction turns generalizing h index with
  | zero =>
    refine ⟨index, .rests ?_⟩
    have outside : h.items[index * 2 + 1]? = none := List.getElem?_eq_none (by omega)
    simp only [downTurn, outside]
  | succ turns ih =>
    unfold down
    split
    · rename_i leaf
      exact ⟨index, .rests (by simp only [downTurn, leaf])⟩
    · rename_i left first
      split
      · rename_i item smallest here chosen
        split
        · rename_i rest
          exact ⟨index, .rests (by simp only [downTurn, first, here, chosen, rest, if_true])⟩
        · rename_i later
          have lower : index < lesserChild compare h index left := by
            rcases lesserChild_cases compare h index left with same | same <;> omega
          have shorter : (h.swap index (lesserChild compare h index left)).items.length ≤
              turns + lesserChild compare h index left := by
            rw [swap_length]
            omega
          obtain ⟨rest, ends⟩ := ih shorter
          refine ⟨rest, .goes ?_ ends⟩
          simp only [downTurn, first, here, chosen, if_neg later]
          exact checkedSwap_goes here chosen
      · rename_i missing
        refine ⟨index, .rests ?_⟩
        simp only [downTurn, first]

variable (compare h)

theorem repair_ends (index : Nat) : ∃ risen sunk, Ends (upTurn compare) (h, index) risen ∧
    Ends (downTurn compare) risen sunk ∧ sunk.1 = h.repair compare index := by
  have enough : (up compare index h index).1.items.length ≤ h.items.length + (up compare index h index).2 := by
    rw [up_length]
    omega
  have rises : Ends (upTurn compare) (h, index) (up compare index h index) := up_ends index le_rfl
  obtain ⟨rest, sinks⟩ : ∃ rest, Ends (downTurn compare) (up compare index h index) (h.repair compare index, rest) :=
    down_ends h.items.length enough
  exact ⟨_, _, rises, sinks, rfl⟩

theorem fix_ends (item : T) : Fixes compare h item (h.fix compare item) := by
  unfold fix
  split
  · rename_i index place
    obtain ⟨risen, sunk, rises, sinks, same⟩ := repair_ends compare h index
    rw [← same]
    exact .found place rises sinks
  · rename_i missing
    exact .absent missing

theorem remove_ends (indexed : h.Indexed) (item : T) : Removes compare h item (h.remove compare item).1 := by
  cases place : h.positions.get item with
  | none =>
    simp only [remove, place]
    exact .absent place
  | some index =>
    have entry := (indexed item index).mp place
    cases tail : h.items.getLast? with
    | none =>
      rw [List.getLast?_eq_none_iff.mp tail] at entry
      cases entry
    | some last =>
      simp only [remove, place, tail]
      split
      · rename_i long
        exact .inner place tail long (fix_ends compare _ last)
      · rename_i short
        exact .last place short

variable {compare h}

theorem fixes_eq {item : T} {t : IndexedHeap T} (fixes : Fixes compare h item t) : t = h.fix compare item := by
  cases fixes with
  | absent missing => simp only [fix, missing]
  | found place rises sinks =>
    rename_i index risen sunk
    obtain ⟨risen', sunk', rises', sinks', same⟩ := repair_ends compare h index
    have first := ends_unique rises rises'
    subst first
    have second := ends_unique sinks sinks'
    subst second
    simp only [fix, place]
    exact same

theorem removes_eq {item : T} {t : IndexedHeap T} (removes : Removes compare h item t) : t = (h.remove compare item).1 := by
  cases removes with
  | absent missing => simp only [remove, missing]
  | last place short =>
    simp only [remove, place]
    split
    · rfl
    · rw [if_neg short]
  | inner place tail long fixes =>
    simp only [remove, place, tail, if_pos long]
    exact fixes_eq fixes

end Loops

/-- The heap, the keys as they are now, and the entries that were pushed and not removed. -/
structure Keyed (T K : Type) where
  heap : IndexedHeap T
  key : T → K
  live : Set T

inductive Operation (T K : Type) where
  | push (item : T)
  | pop
  | remove (item : T)
  | fix (item : T) (key : K)
  | rekey (item : T) (key : K)

section Runs
variable {T K : Type} [DecidableEq T] (compare : K → K → Int)

/-- The comparison of the entries by the keys that they have. -/
def byKeys (key : T → K) (x y : T) : Int := compare (key x) (key y)

def Keyed.without (s : Keyed T K) (heap : IndexedHeap T) (item : T) : Keyed T K :=
  { s with heap, live := s.live \ {item} }

/-- The operation comes to its end there. A key changes just before its entry is
    repaired, or while the entry is not in the heap. -/
inductive Performs (s : Keyed T K) : Operation T K → Keyed T K → Prop where
  | push {item : T} {risen : IndexedHeap T × Nat}
      (rises : Ends (upTurn (byKeys compare s.key)) (s.heap.append item, s.heap.items.length) risen) :
      Performs s (.push item) { s with heap := risen.1, live := insert item s.live }
  | nothing (empty : s.heap.peek = none) : Performs s .pop s
  | pop {item : T} {heap : IndexedHeap T} (top : s.heap.peek = some item)
      (removes : Removes (byKeys compare s.key) s.heap item heap) : Performs s .pop (s.without heap item)
  | remove {item : T} {heap : IndexedHeap T} (removes : Removes (byKeys compare s.key) s.heap item heap) :
      Performs s (.remove item) (s.without heap item)
  | fix {item : T} {key : K} {heap : IndexedHeap T}
      (fixes : Fixes (byKeys compare (update s.key item key)) s.heap item heap) :
      Performs s (.fix item key) { s with heap, key := update s.key item key }
  | rekey {item : T} {key : K} : Performs s (.rekey item key) { s with key := update s.key item key }

/-- What a caller keeps to: it pushes no entry twice, and repairs an entry of the heap
    whose key has changed. -/
def Admitted (s : Keyed T K) : Operation T K → Prop
  | .push item => item ∉ s.heap.items
  | .rekey item _ => item ∉ s.heap.items
  | _ => True

inductive Reached : Keyed T K → Prop where
  | empty (key : T → K) : Reached ⟨empty, key, ∅⟩
  | next {s t : Keyed T K} {o : Operation T K} (reached : Reached s) (admitted : Admitted s o)
      (performs : Performs compare s o t) : Reached t

structure Keeps (s : Keyed T K) : Prop where
  valid : s.heap.Valid (byKeys compare s.key)
  holds : ∀ item, item ∈ s.heap.items ↔ item ∈ s.live

variable {compare} {s t : Keyed T K} {o : Operation T K}

omit [DecidableEq T] in
theorem ranks_byKeys (ranks : Ranks compare) (key : T → K) : Ranks (byKeys compare key) where
  antisymm x y := ranks.antisymm (key x) (key y)
  trans x y z := ranks.trans (key x) (key y) (key z)

theorem byKeys_update (key : T → K) {item x y : T} (k : K) (other : x ≠ item) (another : y ≠ item) :
    byKeys compare (update key item k) x y = byKeys compare key x y := by
  simp [byKeys, other, another]

theorem keeps_removes (ranks : Ranks compare) (keeps : Keeps compare s) {item : T} {heap : IndexedHeap T}
    (removes : Removes (byKeys compare s.key) s.heap item heap) : Keeps compare (s.without heap item) := by
  rw [removes_eq removes]
  by_cases mem : item ∈ s.heap.items
  · have perm := (remove_keeps (byKeys compare s.key) keeps.valid.indexed mem).2
    have nodup := perm.nodup_iff.mpr (indexed_nodup keeps.valid.indexed)
    constructor
    · exact remove_valid (ranks_byKeys ranks s.key) keeps.valid mem
    · intro other
      have listed := perm.mem_iff (a := other)
      rw [List.mem_cons, keeps.holds other] at listed
      simp only [Keyed.without, Set.mem_sdiff, Set.mem_singleton_iff]
      constructor
      · intro inside
        refine ⟨listed.mp (.inr inside), ?_⟩
        rintro rfl
        exact (List.nodup_cons.mp nodup).1 inside
      · rintro ⟨live, apart⟩
        exact (listed.mpr live).resolve_left apart
  · have missing := indexed_absent keeps.valid.indexed mem
    simp only [remove, missing]
    constructor
    · exact keeps.valid
    · intro other
      simp only [Keyed.without, Set.mem_sdiff, Set.mem_singleton_iff]
      rw [keeps.holds other]
      constructor
      · intro live
        refine ⟨live, ?_⟩
        rintro rfl
        exact mem ((keeps.holds other).mpr live)
      · exact And.left

/-- A heap without the entry does not see its key. -/
theorem valid_outside (keeps : Keeps compare s) {item : T} (outside : item ∉ s.heap.items) (k : K) :
    s.heap.Valid (byKeys compare (update s.key item k)) := by
  constructor
  · exact keeps.valid.indexed
  · intro c positive x y up down
    have first : x ≠ item := by
      rintro rfl
      exact outside (List.mem_of_getElem? up)
    have second : y ≠ item := by
      rintro rfl
      exact outside (List.mem_of_getElem? down)
    unfold NotAfter
    rw [byKeys_update s.key k first second]
    exact keeps.valid.ordered c positive x y up down

theorem performs_keeps (ranks : Ranks compare) (keeps : Keeps compare s) (admitted : Admitted s o)
    (performs : Performs compare s o t) : Keeps compare t := by
  cases performs with
  | push rises =>
    rename_i item risen
    rw [ends_unique rises (up_ends s.heap.items.length le_rfl)]
    have perm := (push_keeps (byKeys compare s.key) keeps.valid.indexed admitted).2
    constructor
    · exact push_valid (ranks_byKeys ranks s.key) keeps.valid admitted
    · intro other
      have listed := perm.mem_iff (a := other)
      rw [List.mem_cons, keeps.holds other] at listed
      exact listed
  | nothing => exact keeps
  | pop top removes => exact keeps_removes ranks keeps removes
  | remove removes => exact keeps_removes ranks keeps removes
  | fix fixes =>
    rename_i item k heap
    rw [fixes_eq fixes]
    have perm := (fix_keeps (byKeys compare (update s.key item k)) item keeps.valid.indexed).2
    constructor
    · by_cases mem : item ∈ s.heap.items
      · exact fix_valid (ranks_byKeys ranks s.key) (ranks_byKeys ranks _) keeps.valid mem fun x y other another =>
          byKeys_update s.key k other another
      · have missing := indexed_absent keeps.valid.indexed mem
        simp only [IndexedHeap.fix, missing]
        exact valid_outside keeps mem k
    · intro other
      rw [perm.mem_iff]
      exact keeps.holds other
  | rekey => exact ⟨valid_outside keeps admitted _, keeps.holds⟩

theorem reached_keeps (ranks : Ranks compare) (reached : Reached compare s) : Keeps compare s := by
  induction reached with
  | empty key =>
    constructor
    · exact empty_valid
    · simp [IndexedHeap.empty]
  | next _ admitted performs ih => exact performs_keeps ranks ih admitted performs

theorem performs_ends (keeps : Keeps compare s) (o : Operation T K) : ∃ t, Performs compare s o t := by
  cases o with
  | push item => exact ⟨_, .push (up_ends s.heap.items.length le_rfl)⟩
  | pop =>
    cases top : s.heap.peek with
    | none => exact ⟨_, .nothing top⟩
    | some item => exact ⟨_, .pop top (remove_ends _ _ keeps.valid.indexed item)⟩
  | remove item => exact ⟨_, .remove (remove_ends _ _ keeps.valid.indexed item)⟩
  | fix item k => exact ⟨_, .fix (fix_ends _ _ item)⟩
  | rekey item k => exact ⟨_, .rekey⟩

end Runs

/- After every run of pushes, pops, removals and repairs the map of positions is the
   inverse of the list, no entry is before its parent, the heap holds what was pushed
   and not removed, its head is a minimum, and the next operation comes to its end. -/
theorem heap_invariant {T K : Type} [DecidableEq T] {compare : K → K → Int} (ranks : Ranks compare) {s : Keyed T K}
    (reached : Reached compare s) :
    (∀ item i, s.heap.positions.get item = some i ↔ s.heap.items[i]? = some item) ∧
    (∀ c x y, 0 < c → s.heap.items[(c - 1) / 2]? = some x → s.heap.items[c]? = some y →
      compare (s.key x) (s.key y) ≤ 0) ∧
    s.heap.items.Nodup ∧ (∀ item, item ∈ s.heap.items ↔ item ∈ s.live) ∧
    (s.heap.peek = none ↔ s.live = ∅) ∧
    (∀ item, s.heap.peek = some item → item ∈ s.live ∧ ∀ other ∈ s.live, compare (s.key item) (s.key other) ≤ 0) ∧
    ∀ o, ∃ t, Performs compare s o t := by
  have keeps := reached_keeps ranks reached
  refine ⟨keeps.valid.indexed, ?_, indexed_nodup keeps.valid.indexed, keeps.holds, ?_, ?_, performs_ends keeps⟩
  · intro c x y positive up down
    exact keeps.valid.ordered c positive x y up down
  · rw [Set.eq_empty_iff_forall_notMem]
    constructor
    · intro none item live
      have mem := (keeps.holds item).mpr live
      rw [peek, List.getElem?_eq_none_iff] at none
      rw [List.eq_nil_of_length_eq_zero (Nat.le_zero.mp none)] at mem
      cases mem
    · intro dead
      rw [peek, List.getElem?_eq_none_iff]
      cases items : s.heap.items with
      | nil => exact le_rfl
      | cons item rest => exact absurd ((keeps.holds item).mp (by rw [items]; exact List.mem_cons_self)) (dead item)
  · intro item top
    constructor
    · exact (keeps.holds item).mp (List.mem_of_getElem? top)
    · intro other live
      exact peek_least (ranks_byKeys ranks s.key) keeps.valid top other ((keeps.holds other).mpr live)

theorem difference_ranks : Ranks fun a b : Int => a - b where
  antisymm x y := by omega
  trans x y z := by
    simp only [NotAfter]
    omega

section Functions
variable {T K : Type} [DecidableEq T] {compare : K → K → Int} {s : Keyed T K}

theorem reached_push (reached : Reached compare s) (item : T) (fresh : item ∉ s.heap.items) :
    Reached compare { s with heap := s.heap.push (byKeys compare s.key) item, live := insert item s.live } :=
  .next (o := .push item) reached fresh (.push (up_ends s.heap.items.length le_rfl))

theorem reached_fix (reached : Reached compare s) (item : T) (k : K) :
    Reached compare { s with heap := s.heap.fix (byKeys compare (update s.key item k)) item, key := update s.key item k } :=
  .next (o := .fix item k) reached trivial (.fix (fix_ends _ _ item))

theorem reached_remove (ranks : Ranks compare) (reached : Reached compare s) (item : T) :
    Reached compare (s.without (s.heap.remove (byKeys compare s.key) item).1 item) :=
  .next (o := .remove item) reached trivial
    (.remove (remove_ends _ _ (reached_keeps ranks reached).valid.indexed item))

end Functions

/-- Three entries are pushed, the last in order is made the first, and the one that was
    first is removed. -/
theorem heap_invariant_mended : ∃ s : Keyed Nat Int, Reached (fun a b => a - b) s ∧ s.heap.items = [3, 2] ∧
    3 ∈ s.live ∧ ∀ other ∈ s.live, s.key 3 - s.key other ≤ 0 := by
  have start : Reached (fun a b : Int => a - b) ⟨empty, fun n : Nat => (n : Int), ∅⟩ := .empty _
  have three := reached_push start 3 (by decide +kernel)
  have one := reached_push three 1 (by decide +kernel)
  have two := reached_push one 2 (by decide +kernel)
  have gone := reached_remove difference_ranks (reached_fix two 3 0) 1
  obtain ⟨_, _, _, _, _, least, _⟩ := heap_invariant difference_ranks gone
  refine ⟨_, gone, ?_, least 3 ?_⟩
  · decide +kernel
  · decide +kernel

end Pools.IndexedHeap
