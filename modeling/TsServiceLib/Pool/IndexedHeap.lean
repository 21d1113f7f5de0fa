import TsServiceLib.Library.HeapOrder
import TsServiceLib.Library.OrderedMap
import Mathlib.Data.Prod.Lex

/-!
The indexed minimum heap under the priority pool and the delay pool. The
position map makes removal and reprioritisation start from the entry itself.
What the map and the multiset of entries do is independent of the comparison;
only the heap order needs the comparison to be a total preorder. A loop of the
source that runs until it breaks is given as many turns as it can use.
-/
namespace Pools
open OrderedMaps HeapOrder

structure IndexedHeap (T : Type) where
  items : List T
  positions : OrderedMap T Nat

namespace IndexedHeap
variable {T : Type}

def empty : IndexedHeap T := ⟨[], .empty⟩

def length (h : IndexedHeap T) : Nat := h.items.length

def peek (h : IndexedHeap T) : Option T := h.items[0]?

section Operations
variable [DecidableEq T]

def has (h : IndexedHeap T) (item : T) : Bool := h.positions.has item

def swap (h : IndexedHeap T) (a b : Nat) : IndexedHeap T :=
  match h.items[a]?, h.items[b]? with
  | some left, some right =>
    { items := (h.items.set a right).set b left
      positions := (h.positions.set right a).set left b }
  -- the source throws here; both its callers have just read the two entries
  | _, _ => h

/-- At most `turns` turns of the upward loop; a loop from `index` uses at most `index`. -/
def up (compare : T → T → Int) : Nat → IndexedHeap T → Nat → IndexedHeap T × Nat
  | 0, h, index => (h, index)
  | turns + 1, h, index =>
    if index = 0 then (h, index)
    else
      match h.items[index]?, h.items[parent index]? with
      | some item, some other =>
        if 0 ≤ compare item other then (h, index)
        else up compare turns (h.swap index (parent index)) (parent index)
      | _, _ => (h, index)

/-- The child the downward loop compares with: the right one if it is strictly first. -/
def lesserChild (compare : T → T → Int) (h : IndexedHeap T) (index : Nat) (left : T) : Nat :=
  match h.items[index * 2 + 2]? with
  | some right => if compare right left < 0 then index * 2 + 2 else index * 2 + 1
  | none => index * 2 + 1

def down (compare : T → T → Int) : Nat → IndexedHeap T → Nat → IndexedHeap T
  | 0, h, _ => h
  | turns + 1, h, index =>
    match h.items[index * 2 + 1]? with
    | none => h
    | some left =>
      match h.items[index]?, h.items[lesserChild compare h index left]? with
      | some item, some smallest =>
        if compare item smallest ≤ 0 then h
        else
          down compare turns (h.swap index (lesserChild compare h index left))
            (lesserChild compare h index left)
      | _, _ => h

def repair (compare : T → T → Int) (h : IndexedHeap T) (index : Nat) : IndexedHeap T :=
  down compare h.items.length (up compare index h index).1 (up compare index h index).2

def fix (compare : T → T → Int) (h : IndexedHeap T) (item : T) : IndexedHeap T :=
  match h.positions.get item with
  | some index => repair compare h index
  | none => h

def append (h : IndexedHeap T) (item : T) : IndexedHeap T :=
  { items := h.items ++ [item], positions := h.positions.set item h.items.length }

def push (compare : T → T → Int) (h : IndexedHeap T) (item : T) : IndexedHeap T :=
  (up compare h.items.length (h.append item) h.items.length).1

/-- The heap without its last entry, and without `item` in its position map. -/
def dropped (h : IndexedHeap T) (item : T) : IndexedHeap T :=
  { items := h.items.dropLast, positions := h.positions.delete item }

def overwrite (h : IndexedHeap T) (index : Nat) (last : T) : IndexedHeap T :=
  { items := h.items.set index last, positions := h.positions.set last index }

def remove (compare : T → T → Int) (h : IndexedHeap T) (item : T) : IndexedHeap T × Bool :=
  match h.positions.get item with
  | none => (h, false)
  | some index =>
    match h.items.getLast? with
    | none => (h.dropped item, true)
    | some last =>
      if index < (h.dropped item).items.length then
        (((h.dropped item).overwrite index last).fix compare last, true)
      else (h.dropped item, true)

def pop (compare : T → T → Int) (h : IndexedHeap T) : Option T × IndexedHeap T :=
  match h.peek with
  | none => (none, h)
  | some item => (some item, (h.remove compare item).1)

/-- The position map is the inverse of the list of entries. -/
def Indexed (h : IndexedHeap T) : Prop :=
  ∀ x i, h.positions.get x = some i ↔ h.items[i]? = some x

end Operations

section Positions
variable [DecidableEq T]

theorem indexed_nodup {h : IndexedHeap T} (indexed : h.Indexed) : h.items.Nodup := by
  apply List.nodup_iff_getElem?_ne_getElem?.mpr
  intro i j less inside same
  obtain ⟨x, at_j⟩ : ∃ x, h.items[j]? = some x := ⟨_, List.getElem?_eq_getElem inside⟩
  have at_i : h.items[i]? = some x := same.trans at_j
  have first := (indexed x i).mpr at_i
  have second := (indexed x j).mpr at_j
  rw [first] at second
  cases second
  omega

theorem indexed_empty : (empty : IndexedHeap T).Indexed := by
  intro x i
  simp [empty]

theorem indexed_mem {h : IndexedHeap T} (indexed : h.Indexed) {x : T} (mem : x ∈ h.items) :
    ∃ i, h.positions.get x = some i ∧ h.items[i]? = some x := by
  obtain ⟨i, at_i⟩ := List.mem_iff_getElem?.mp mem
  exact ⟨i, (indexed x i).mpr at_i, at_i⟩

theorem indexed_absent {h : IndexedHeap T} (indexed : h.Indexed) {x : T} (absent : x ∉ h.items) :
    h.positions.get x = none := by
  apply Option.eq_none_iff_forall_ne_some.mpr
  intro i found
  exact absent (List.mem_of_getElem? ((indexed x i).mp found))

theorem indexed_unique {h : IndexedHeap T} (indexed : h.Indexed) {x : T} {i j : Nat}
    (first : h.items[i]? = some x) (second : h.items[j]? = some x) : i = j := by
  have at_i := (indexed x i).mpr first
  have at_j := (indexed x j).mpr second
  rw [at_i] at at_j
  cases at_j
  trivial

theorem swap_eq {h : IndexedHeap T} {a b : Nat} {x y : T} (left : h.items[a]? = some x)
    (right : h.items[b]? = some y) :
    h.swap a b = ⟨exchange h.items a b x y, (h.positions.set y a).set x b⟩ := by
  simp only [swap, left, right, exchange]

theorem placed_iff {x z : T} {b k : Nat} {place : Option Nat} {entry : Option T}
    (old : z ≠ x → k ≠ b → (place = some k ↔ entry = some z)) (nowhere : z = x → k ≠ b → entry ≠ some z)
    (free : z ≠ x → k = b → place ≠ some k) :
    (if z = x then some b else place) = some k ↔ (if k = b then some x else entry) = some z := by
  by_cases same : z = x
  · rw [if_pos same]
    by_cases there : k = b
    · simp [same, there]
    · rw [if_neg there]
      constructor
      · intro equal
        injection equal with equal
        exact absurd equal.symm there
      · intro found
        exact absurd found (nowhere same there)
  · rw [if_neg same]
    by_cases there : k = b
    · rw [if_pos there]
      constructor
      · intro found
        exact absurd found (free same there)
      · intro equal
        injection equal with equal
        exact absurd equal.symm same
    · rw [if_neg there]
      exact old same there

theorem swap_indexed {h : IndexedHeap T} (indexed : h.Indexed) (a b : Nat) :
    (h.swap a b).Indexed := by
  unfold swap
  split
  · rename_i x y left right
    intro z k
    have get := exchange_get left right k
    unfold exchange at get
    rw [get, OrderedMap.get_set, OrderedMap.get_set]
    apply placed_iff
    · intro other elsewhere
      apply placed_iff
      · intro _ _
        exact indexed z k
      · intro same _ found
        rw [same] at found
        exact elsewhere (indexed_unique indexed found right)
      · intro _ there found
        have at_a := (indexed z k).mp found
        rw [there, left] at at_a
        injection at_a with at_a
        exact other at_a.symm
    · intro same elsewhere found
      rw [same] at found
      split at found
      · rename_i there
        injection found with equal
        rw [equal] at right
        exact elsewhere (there.trans (indexed_unique indexed left right))
      · rename_i apart
        exact apart (indexed_unique indexed found left)
    · intro other there found
      split at found
      · rename_i same
        injection found with equal
        rw [equal, there, right] at left
        injection left with left
        exact other (same.trans left)
      · rename_i apart
        have at_b := (indexed z k).mp found
        rw [there, right] at at_b
        injection at_b with at_b
        exact apart at_b.symm
  · exact indexed

theorem swap_perm (h : IndexedHeap T) (a b : Nat) : (h.swap a b).items.Perm h.items := by
  unfold swap
  split
  · rename_i x y left right
    exact exchange_perm left right
  · exact List.Perm.refl _

variable (compare : T → T → Int)

theorem up_keeps {h : IndexedHeap T} (turns index : Nat) (indexed : h.Indexed) :
    (up compare turns h index).1.Indexed ∧ (up compare turns h index).1.items.Perm h.items := by
  induction turns generalizing h index with
  | zero => exact ⟨indexed, List.Perm.refl _⟩
  | succ turns ih =>
    unfold up
    split
    · exact ⟨indexed, List.Perm.refl _⟩
    · split
      · split
        · exact ⟨indexed, List.Perm.refl _⟩
        · obtain ⟨kept, perm⟩ := ih (parent index) (swap_indexed indexed index (parent index))
          exact ⟨kept, perm.trans (swap_perm h _ _)⟩
      · exact ⟨indexed, List.Perm.refl _⟩

theorem down_keeps {h : IndexedHeap T} (turns index : Nat) (indexed : h.Indexed) :
    (down compare turns h index).Indexed ∧ (down compare turns h index).items.Perm h.items := by
  induction turns generalizing h index with
  | zero => exact ⟨indexed, List.Perm.refl _⟩
  | succ turns ih =>
    unfold down
    split
    · exact ⟨indexed, List.Perm.refl _⟩
    · rename_i left _
      split
      · split
        · exact ⟨indexed, List.Perm.refl _⟩
        · obtain ⟨kept, perm⟩ := ih _ (swap_indexed indexed index (lesserChild compare h index left))
          exact ⟨kept, perm.trans (swap_perm h _ _)⟩
      · exact ⟨indexed, List.Perm.refl _⟩

theorem repair_keeps {h : IndexedHeap T} (index : Nat) (indexed : h.Indexed) :
    (h.repair compare index).Indexed ∧ (h.repair compare index).items.Perm h.items := by
  obtain ⟨risen, first⟩ := up_keeps compare index index indexed
  obtain ⟨sunk, second⟩ := down_keeps compare h.items.length (up compare index h index).2 risen
  exact ⟨sunk, second.trans first⟩

theorem fix_keeps {h : IndexedHeap T} (item : T) (indexed : h.Indexed) :
    (h.fix compare item).Indexed ∧ (h.fix compare item).items.Perm h.items := by
  unfold fix
  split
  · exact repair_keeps compare _ indexed
  · exact ⟨indexed, List.Perm.refl _⟩

theorem append_indexed {h : IndexedHeap T} (indexed : h.Indexed) {item : T}
    (fresh : item ∉ h.items) : (h.append item).Indexed := by
  intro x i
  have missing := indexed_absent indexed fresh
  have entries : (h.items ++ [item])[i]? = if i = h.items.length then some item else h.items[i]? := by
    by_cases last : i = h.items.length
    · simp [last]
    · rw [if_neg last, List.getElem?_append]
      split
      · rfl
      · rename_i beyond
        rw [List.getElem?_eq_none (by simp; omega), List.getElem?_eq_none (by omega)]
  simp only [append, OrderedMap.get_set, entries]
  apply placed_iff
  · intro _ _
    exact indexed x i
  · intro same _ found
    rw [same] at found
    exact fresh (List.mem_of_getElem? found)
  · intro _ there found
    have inside := (List.getElem?_eq_some_iff.mp ((indexed x i).mp found)).1
    omega

theorem push_keeps {h : IndexedHeap T} (indexed : h.Indexed) {item : T} (fresh : item ∉ h.items) :
    (h.push compare item).Indexed ∧ (h.push compare item).items.Perm (item :: h.items) := by
  obtain ⟨kept, perm⟩ := up_keeps compare h.items.length h.items.length
    (append_indexed indexed fresh)
  exact ⟨kept, perm.trans (List.perm_append_singleton item h.items)⟩

omit [DecidableEq T] in
theorem set_perm {init : List T} {index : Nat} {item : T} (place : init[index]? = some item)
    (last : T) : (item :: init.set index last).Perm (init ++ [last]) := by
  obtain ⟨inside, rfl⟩ := List.getElem?_eq_some_iff.mp place
  have split : init = init.take index ++ init[index] :: init.drop (index + 1) := by simp
  rw [List.set_eq_take_append_cons_drop, if_pos inside]
  calc
    (init[index] :: (init.take index ++ last :: init.drop (index + 1))).Perm
        (last :: (init.take index ++ init[index] :: init.drop (index + 1))) := by
      refine (List.perm_middle.cons _).trans ?_
      exact (List.Perm.swap _ _ _).trans (List.perm_middle.symm.cons _)
    _ = last :: init := by rw [← split]
    List.Perm _ (init ++ [last]) := (List.perm_append_singleton last init).symm

theorem dropped_indexed {h : IndexedHeap T} (indexed : h.Indexed) {init : List T} {item : T}
    (shape : h.items = init ++ [item]) : (h.dropped item).Indexed := by
  have place : h.items[init.length]? = some item := by simp [shape]
  have absent : item ∉ init := by
    have distinct := indexed_nodup indexed
    rw [shape, ← List.concat_eq_append] at distinct
    exact ((List.nodup_concat init item).mp distinct).1
  intro x i
  have old := indexed x i
  simp only [dropped, OrderedMap.get_delete, shape, List.dropLast_concat]
  by_cases same : x = item
  · rw [if_pos same]
    constructor
    · intro found
      cases found
    · intro found
      rw [same] at found
      exact absurd (List.mem_of_getElem? found) absent
  · rw [if_neg same, old, shape, List.getElem?_append]
    split
    · rfl
    · rename_i beyond
      constructor
      · intro found
        have mem := List.mem_of_getElem? found
        exact absurd (List.mem_singleton.mp mem) same
      · intro found
        exact absurd (List.getElem?_eq_some_iff.mp found).1 beyond

/-- The last entry takes the place of the one that is removed. -/
theorem overwrite_indexed {h : IndexedHeap T} (indexed : h.Indexed) {init : List T}
    {item last : T} {index : Nat} (shape : h.items = init ++ [last]) (inside : index < init.length)
    (place : h.positions.get item = some index) :
    ((h.dropped item).overwrite index last).Indexed := by
  have entry := (indexed item index).mp place
  have final : h.items[init.length]? = some last := by simp [shape]
  intro x i
  have entries : (init.set index last)[i]? = if i = index then some last else init[i]? := by
    rw [List.getElem?_set]
    by_cases there : i = index
    · simp [there, inside]
    · simp [there, Ne.symm there]
  have kept : i < init.length → init[i]? = h.items[i]? := by
    intro before
    rw [shape, List.getElem?_append_left before]
  have lost : ∀ z, init[i]? = some z → h.items[i]? = some z := by
    intro z found
    rw [← kept (List.getElem?_eq_some_iff.mp found).1]
    exact found
  simp only [overwrite, dropped, OrderedMap.get_delete, OrderedMap.get_set, shape, List.dropLast_concat, entries]
  apply placed_iff
  · intro other elsewhere
    by_cases same : x = item
    · rw [if_pos same]
      constructor
      · intro found
        cases found
      · intro found
        have there := lost x found
        rw [same] at there
        exact absurd (indexed_unique indexed there entry) elsewhere
    · rw [if_neg same, indexed x i]
      constructor
      · intro found
        by_cases before : i < init.length
        · rw [kept before]
          exact found
        · rw [shape, List.getElem?_append_right (by omega)] at found
          exact absurd (List.mem_singleton.mp (List.mem_of_getElem? found)) other
      · exact lost x
  · intro same _ found
    rw [same] at found
    have before := (List.getElem?_eq_some_iff.mp found).1
    have there := indexed_unique indexed (lost last found) final
    omega
  · intro _ there found
    split at found
    · cases found
    · rename_i apart
      have at_index := (indexed x i).mp found
      rw [there, entry] at at_index
      injection at_index with at_index
      exact apart at_index.symm

theorem remove_cases {h : IndexedHeap T} (indexed : h.Indexed) {item : T} {index : Nat}
    (place : h.positions.get item = some index) :
    ((h.remove compare item).1 = h.dropped item ∧ ∃ init, h.items = init ++ [item]) ∨
    ∃ init last, h.items = init ++ [last] ∧ index < init.length ∧ init[index]? = some item ∧
      (h.remove compare item).1 = ((h.dropped item).overwrite index last).repair compare index := by
  have entry := (indexed item index).mp place
  have inside := (List.getElem?_eq_some_iff.mp entry).1
  obtain ⟨init, last, shape⟩ : ∃ init last, h.items = init ++ [last] := by
    rcases List.eq_nil_or_concat h.items with none | ⟨init, last, shape⟩
    · simp [none] at inside
    · exact ⟨init, last, by simpa using shape⟩
  have tail : h.items.getLast? = some last := by simp [shape]
  have rest : (h.dropped item).items = init := by simp [dropped, shape]
  simp only [remove, place, tail, rest]
  split
  · rename_i interior
    right
    refine ⟨init, last, shape, interior, ?_, ?_⟩
    · rw [shape, List.getElem?_append_left interior] at entry
      exact entry
    · have found : ((h.dropped item).overwrite index last).positions.get last = some index :=
        OrderedMap.get_set_self _ _ _
      simp only [fix, found]
  · rename_i exterior
    left
    refine ⟨rfl, init, ?_⟩
    have final : index = init.length := by
      simp only [shape, List.length_append, List.length_singleton] at inside
      omega
    subst final
    simp only [shape, List.getElem?_concat_length, Option.some.injEq] at entry
    rw [shape, entry]

theorem remove_keeps {h : IndexedHeap T} (indexed : h.Indexed) {item : T} (mem : item ∈ h.items) :
    (h.remove compare item).1.Indexed ∧
      (item :: (h.remove compare item).1.items).Perm h.items := by
  obtain ⟨index, place, entry⟩ := indexed_mem indexed mem
  rcases remove_cases compare indexed place with ⟨eq, init, shape⟩ | ⟨init, last, shape, inside, here, eq⟩
  · rw [eq]
    refine ⟨dropped_indexed indexed shape, ?_⟩
    simp only [dropped, shape, List.dropLast_concat]
    exact (List.perm_append_singleton item init).symm
  · rw [eq]
    obtain ⟨kept, perm⟩ := repair_keeps compare index (overwrite_indexed indexed shape inside place)
    refine ⟨kept, (perm.cons item).trans ?_⟩
    simp only [overwrite, dropped, shape, List.dropLast_concat]
    exact set_perm here last

theorem pop_keeps {h : IndexedHeap T} (indexed : h.Indexed) {item : T} {rest : IndexedHeap T}
    (popped : h.pop compare = (some item, rest)) :
    h.items[0]? = some item ∧ rest.Indexed ∧ (item :: rest.items).Perm h.items := by
  unfold pop at popped
  split at popped
  · cases popped
  · rename_i top
    cases popped
    exact ⟨top, remove_keeps compare indexed (List.mem_of_getElem? top)⟩

theorem pop_none {h : IndexedHeap T} : (h.pop compare).1 = none ↔ h.items = [] := by
  unfold pop peek
  cases h.items <;> simp

end Positions

def NotAfter (compare : T → T → Int) (x y : T) : Prop := compare x y ≤ 0

/-- A comparison that ranks its arguments: a total preorder. -/
structure Ranks (compare : T → T → Int) : Prop where
  antisymm : ∀ x y, 0 ≤ compare x y ↔ compare y x ≤ 0
  trans : ∀ x y z, NotAfter compare x y → NotAfter compare y z → NotAfter compare x z

section Order
variable [DecidableEq T] {compare : T → T → Int}

omit [DecidableEq T] in
theorem Ranks.refl (ranks : Ranks compare) (x : T) : NotAfter compare x x := by
  have same := ranks.antisymm x x
  unfold NotAfter
  omega

theorem up_ordered (ranks : Ranks compare) (turns : Nat) {h : IndexedHeap T} {index : Nat}
    (enough : index ≤ turns) (loose : Loose (NotAfter compare) h.items index) :
    Loose (NotAfter compare) (up compare turns h index).1.items (up compare turns h index).2 ∧
      Above (NotAfter compare) (up compare turns h index).1.items (up compare turns h index).2 ∧
      (Below (NotAfter compare) h.items index →
        Below (NotAfter compare) (up compare turns h index).1.items (up compare turns h index).2) := by
  induction turns generalizing h index with
  | zero =>
    have root : index = 0 := by omega
    subst root
    exact ⟨loose, fun positive => absurd positive (Nat.lt_irrefl 0), id⟩
  | succ turns ih =>
    unfold up
    split
    · rename_i root
      subst root
      exact ⟨loose, fun positive => absurd positive (Nat.lt_irrefl 0), id⟩
    · rename_i interior
      have positive : 0 < index := Nat.pos_of_ne_zero interior
      split
      · rename_i item other here above
        split
        · rename_i rests
          refine ⟨loose, ?_, id⟩
          intro _ x y at_parent at_index
          rw [above] at at_parent
          rw [here] at at_index
          cases at_parent
          cases at_index
          exact (ranks.antisymm item other).mp rests
        · rename_i earlier
          have smaller : NotAfter compare item other := by
            unfold NotAfter
            omega
          have next := rise ranks.trans loose positive here above smaller
          have swapped := congrArg items (swap_eq here above)
          simp only at swapped
          rw [← swapped] at next
          have upper := parent_lt positive
          have fewer : parent index ≤ turns := by omega
          obtain ⟨kept, resting, below⟩ := ih fewer next.1
          exact ⟨kept, resting, fun _ => below next.2⟩
      · rename_i missing
        refine ⟨loose, ?_, id⟩
        intro _ x y at_parent at_index
        exact absurd at_parent (missing y x at_index)

omit [DecidableEq T] in
theorem lesserChild_cases (compare : T → T → Int) (h : IndexedHeap T) (index : Nat) (left : T) :
    lesserChild compare h index left = index * 2 + 1 ∨
      lesserChild compare h index left = index * 2 + 2 := by
  unfold lesserChild
  split
  · split
    · exact .inr rfl
    · exact .inl rfl
  · exact .inl rfl

omit [DecidableEq T] in
theorem child_cases {c index : Nat} (positive : 0 < c) (child : parent c = index) :
    c = index * 2 + 1 ∨ c = index * 2 + 2 := by
  unfold parent at child
  omega

omit [DecidableEq T] in
theorem lesserChild_least (ranks : Ranks compare) {h : IndexedHeap T} {index : Nat}
    {left smallest : T} (first : h.items[index * 2 + 1]? = some left)
    (chosen : h.items[lesserChild compare h index left]? = some smallest)
    {c : Nat} {z : T} (positive : 0 < c) (child : parent c = index) (found : h.items[c]? = some z) :
    NotAfter compare smallest z := by
  have same := ranks.refl z
  unfold lesserChild at chosen
  split at chosen
  · rename_i right second
    split at chosen
    · rename_i earlier
      rw [second] at chosen
      cases chosen
      rcases child_cases positive child with rfl | rfl
      · rw [first] at found
        cases found
        unfold NotAfter
        omega
      · rw [second] at found
        cases found
        exact same
    · rename_i later
      rw [first] at chosen
      cases chosen
      rcases child_cases positive child with rfl | rfl
      · rw [first] at found
        cases found
        exact same
      · rw [second] at found
        cases found
        apply (ranks.antisymm _ _).mp
        omega
  · rename_i lone
    rw [first] at chosen
    cases chosen
    rcases child_cases positive child with rfl | rfl
    · rw [first] at found
      cases found
      exact same
    · rw [lone] at found
      cases found

theorem down_ordered (ranks : Ranks compare) (turns : Nat) {h : IndexedHeap T} {index : Nat}
    (enough : h.items.length ≤ turns + index) (loose : Loose (NotAfter compare) h.items index)
    (above : Above (NotAfter compare) h.items index) :
    Ordered (NotAfter compare) (down compare turns h index).items := by
  induction turns generalizing h index with
  | zero =>
    apply ordered_of_loose loose above
    intro c positive child x y _ at_child
    have inside := (List.getElem?_eq_some_iff.mp at_child).1
    have lower := parent_lt positive
    omega
  | succ turns ih =>
    unfold down
    split
    · rename_i leaf
      apply ordered_of_loose loose above
      intro c positive child x y _ at_child
      have outside := List.getElem?_eq_none_iff.mp leaf
      have inside := (List.getElem?_eq_some_iff.mp at_child).1
      rcases child_cases positive child with rfl | rfl <;> omega
    · rename_i left first
      have position : 0 < lesserChild compare h index left ∧
          parent (lesserChild compare h index left) = index := by
        unfold parent
        rcases lesserChild_cases compare h index left with at_left | at_right <;> omega
      split
      · rename_i item smallest here chosen
        split
        · rename_i rests
          apply ordered_of_loose loose above
          intro c positive child x y at_index at_child
          rw [here] at at_index
          cases at_index
          exact ranks.trans _ _ _ rests (lesserChild_least ranks first chosen positive child at_child)
        · rename_i later
          have smaller : NotAfter compare smallest item := by
            apply (ranks.antisymm item smallest).mp
            omega
          have next := sink loose position.1 position.2 here chosen smaller
            (fun d z positive child _ found =>
              lesserChild_least ranks first chosen positive child found)
          rw [swap_eq here chosen]
          have lower := parent_lt position.1
          apply ih _ next.1 next.2
          rw [exchange_length]
          omega
      · rename_i missing
        apply ordered_of_loose loose above
        intro c positive child x y at_index at_child
        have bound := (List.getElem?_eq_some_iff.mp first).1
        have chosen : ∃ z, h.items[lesserChild compare h index left]? = some z := by
          unfold lesserChild
          split
          · rename_i right second
            split
            · exact ⟨right, second⟩
            · exact ⟨left, first⟩
          · exact ⟨left, first⟩
        obtain ⟨z, chosen⟩ := chosen
        exact absurd chosen (missing x z at_index)

theorem repair_ordered (ranks : Ranks compare) {h : IndexedHeap T} {index : Nat}
    (indexed : h.Indexed) (loose : Loose (NotAfter compare) h.items index) :
    Ordered (NotAfter compare) (h.repair compare index).items := by
  obtain ⟨kept, above, _⟩ := up_ordered ranks index (Nat.le_refl _) loose
  have same := (up_keeps compare index index indexed).2.length_eq
  apply down_ordered ranks _ _ kept above
  omega

structure Valid (compare : T → T → Int) (h : IndexedHeap T) : Prop where
  indexed : h.Indexed
  ordered : Ordered (NotAfter compare) h.items

theorem empty_valid : (empty : IndexedHeap T).Valid compare := by
  refine ⟨indexed_empty, ?_⟩
  intro c _ x y up _
  simp [empty] at up

theorem push_valid (ranks : Ranks compare) {h : IndexedHeap T} (valid : h.Valid compare) {item : T}
    (fresh : item ∉ h.items) : (h.push compare item).Valid compare := by
  refine ⟨(push_keeps compare valid.indexed fresh).1, ?_⟩
  obtain ⟨loose, below⟩ := append_loose valid.ordered item
  have risen := up_ordered (h := h.append item) ranks h.items.length (Nat.le_refl _) loose
  exact ordered_of_loose risen.1 risen.2.1 (risen.2.2 below)

theorem remove_valid (ranks : Ranks compare) {h : IndexedHeap T} (valid : h.Valid compare) {item : T}
    (mem : item ∈ h.items) : (h.remove compare item).1.Valid compare := by
  refine ⟨(remove_keeps compare valid.indexed mem).1, ?_⟩
  obtain ⟨index, place, entry⟩ := indexed_mem valid.indexed mem
  have shorter := dropLast_ordered valid.ordered
  rcases remove_cases compare valid.indexed place with ⟨eq, _⟩ | ⟨init, last, shape, inside, _, eq⟩
  · rw [eq]
    exact shorter
  · rw [eq]
    apply repair_ordered ranks (overwrite_indexed valid.indexed shape inside place)
    apply set_loose ranks.trans shorter
    simpa [shape] using inside

theorem fix_valid {former : T → T → Int} (old : Ranks former) (ranks : Ranks compare)
    {h : IndexedHeap T} (valid : h.Valid former) {item : T} (mem : item ∈ h.items)
    (unchanged : ∀ x y, x ≠ item → y ≠ item → compare x y = former x y) :
    (h.fix compare item).Valid compare := by
  refine ⟨(fix_keeps compare item valid.indexed).1, ?_⟩
  obtain ⟨index, place, entry⟩ := indexed_mem valid.indexed mem
  have loose : Loose (NotAfter compare) h.items index := by
    apply rerank_loose old.trans valid.ordered (indexed_nodup valid.indexed) entry
    intro x y other another before
    unfold NotAfter at *
    rw [unchanged x y other another]
    exact before
  simp only [fix, place]
  exact repair_ordered ranks valid.indexed loose

/-- The head of a heap is not after any entry. -/
theorem peek_least (ranks : Ranks compare) {h : IndexedHeap T} (valid : h.Valid compare) {item : T}
    (top : h.peek = some item) : ∀ other ∈ h.items, NotAfter compare item other := by
  intro other mem
  obtain ⟨k, found⟩ := List.mem_iff_getElem?.mp mem
  exact root_least ranks.trans ranks.refl valid.ordered top k other found

theorem pop_valid (ranks : Ranks compare) {h rest : IndexedHeap T} (valid : h.Valid compare)
    {item : T} (popped : h.pop compare = (some item, rest)) :
    rest.Valid compare ∧ ∀ other ∈ h.items, NotAfter compare item other := by
  obtain ⟨top, _⟩ := pop_keeps compare valid.indexed popped
  constructor
  · simp only [pop, peek, top] at popped
    cases popped
    exact remove_valid ranks valid (List.mem_of_getElem? top)
  · exact peek_least ranks valid top

end Order

def ByKey {K : Type} [LinearOrder K] (compare : T → T → Int) (key : T → K) (number : T → Nat) : Prop :=
  ∀ a b, compare a b =
    if key a < key b then -1 else if key b < key a then 1 else (number a : Int) - number b

section Keys
variable {K : Type} [LinearOrder K] {compare : T → T → Int} {key : T → K} {number : T → Nat}

theorem notAfter_byKey (keyed : ByKey compare key number) (a b : T) :
    NotAfter compare a b ↔ toLex (key a, number a) ≤ toLex (key b, number b) := by
  unfold NotAfter
  rw [keyed, Prod.Lex.toLex_le_toLex]
  rcases lt_trichotomy (key a) (key b) with less | same | more
  · simp [less]
  · simp only [same, lt_irrefl, if_false, false_or, true_and]
    omega
  · simp [more, not_lt_of_gt more, ne_of_gt more]

theorem byKey_ranks (keyed : ByKey compare key number) : Ranks compare where
  antisymm a b := by
    rw [keyed a b, keyed b a]
    rcases lt_trichotomy (key a) (key b) with less | same | more
    · simp [less, not_lt_of_gt less]
    · simp only [same, lt_irrefl, if_false]
      omega
    · simp [more, not_lt_of_gt more]
  trans a b c := by
    simp only [notAfter_byKey keyed]
    exact le_trans

end Keys

section Lengths
variable [DecidableEq T]

theorem swap_length (h : IndexedHeap T) (a b : Nat) : (h.swap a b).items.length = h.items.length := by
  unfold swap
  split
  · simp
  · rfl

theorem up_length (compare : T → T → Int) (turns : Nat) (h : IndexedHeap T) (index : Nat) :
    (up compare turns h index).1.items.length = h.items.length := by
  induction turns generalizing h index with
  | zero => rfl
  | succ turns ih =>
    unfold up
    split
    · rfl
    · split
      · split
        · rfl
        · rw [ih, swap_length]
      · rfl

theorem down_length (compare : T → T → Int) (turns : Nat) (h : IndexedHeap T) (index : Nat) :
    (down compare turns h index).items.length = h.items.length := by
  induction turns generalizing h index with
  | zero => rfl
  | succ turns ih =>
    unfold down
    split
    · rfl
    · split
      · split
        · rfl
        · rw [ih, swap_length]
      · rfl

theorem fix_length (compare : T → T → Int) (h : IndexedHeap T) (item : T) :
    (h.fix compare item).items.length = h.items.length := by
  unfold fix
  split
  · rw [repair, down_length, up_length]
  · rfl

end Lengths

/-- Two comparisons whose results lie on the same side of zero. -/
def SameSides (compare other : T → T → Int) : Prop :=
  ∀ x y, (compare x y < 0 ↔ other x y < 0) ∧ (0 < compare x y ↔ 0 < other x y)

section Sides
variable [DecidableEq T] {compare other : T → T → Int}

theorem up_sides (same : SameSides compare other) (turns : Nat) (h : IndexedHeap T) (index : Nat) :
    up compare turns h index = up other turns h index := by
  have side : ∀ x y, 0 ≤ compare x y ↔ 0 ≤ other x y := by
    intro x y
    have := same x y
    omega
  induction turns generalizing h index with
  | zero => rfl
  | succ turns ih => simp only [up, side, ih]

omit [DecidableEq T] in
theorem lesserChild_sides (same : SameSides compare other) (h : IndexedHeap T) (index : Nat) (left : T) :
    lesserChild compare h index left = lesserChild other h index left := by
  simp only [lesserChild, (same _ _).1]

theorem down_sides (same : SameSides compare other) (turns : Nat) (h : IndexedHeap T) (index : Nat) :
    down compare turns h index = down other turns h index := by
  have side : ∀ x y, compare x y ≤ 0 ↔ other x y ≤ 0 := by
    intro x y
    have := same x y
    omega
  induction turns generalizing h index with
  | zero => rfl
  | succ turns ih => simp only [down, lesserChild_sides same, side, ih]

theorem repair_sides (same : SameSides compare other) (h : IndexedHeap T) (index : Nat) :
    repair compare h index = repair other h index := by
  simp only [repair, up_sides same, down_sides same]

theorem fix_sides (same : SameSides compare other) (h : IndexedHeap T) (item : T) :
    h.fix compare item = h.fix other item := by
  simp only [fix, repair_sides same]

theorem push_sides (same : SameSides compare other) (h : IndexedHeap T) (item : T) :
    h.push compare item = h.push other item := by
  simp only [push, up_sides same]

theorem pop_sides (same : SameSides compare other) (h : IndexedHeap T) :
    h.pop compare = h.pop other := by
  simp only [pop, remove, fix_sides same]

end Sides

end IndexedHeap

end Pools
