import Mathlib.Data.List.Nodup

/-!
Binary heaps laid out in a list. The order is any transitive relation. A heap
is loose at one position when every edge that avoids the position is in order
and so is the path that leads over it: this is what a changed entry leaves
behind, and what both repair loops keep until the position comes to rest.
-/
namespace HeapOrder
variable {T : Type*}

def parent (i : Nat) : Nat := (i - 1) / 2

/-- The entries at two positions, where both exist, are in order. -/
def Edge (le : T → T → Prop) (items : List T) (p c : Nat) : Prop :=
  ∀ x y, items[p]? = some x → items[c]? = some y → le x y

def Ordered (le : T → T → Prop) (items : List T) : Prop :=
  ∀ c, 0 < c → Edge le items (parent c) c

structure Loose (le : T → T → Prop) (items : List T) (i : Nat) : Prop where
  apart : ∀ c, 0 < c → c ≠ i → parent c ≠ i → Edge le items (parent c) c
  across : ∀ c, 0 < c → parent c = i → 0 < i → Edge le items (parent i) c

def Above (le : T → T → Prop) (items : List T) (i : Nat) : Prop :=
  0 < i → Edge le items (parent i) i

def Below (le : T → T → Prop) (items : List T) (i : Nat) : Prop :=
  ∀ c, 0 < c → parent c = i → Edge le items i c

/-- Exchange the entries of two positions, given that they are `x` and `y`. -/
def exchange (items : List T) (a b : Nat) (x y : T) : List T := (items.set a y).set b x

theorem parent_lt {i : Nat} (positive : 0 < i) : parent i < i := by
  unfold parent
  omega

theorem exchange_get {items : List T} {a b : Nat} {x y : T} (left : items[a]? = some x)
    (right : items[b]? = some y) (k : Nat) :
    (exchange items a b x y)[k]? = if k = b then some x else if k = a then some y else items[k]? := by
  have a_lt := (List.getElem?_eq_some_iff.mp left).1
  have b_lt := (List.getElem?_eq_some_iff.mp right).1
  unfold exchange
  simp only [List.getElem?_set, List.length_set]
  split
  · rename_i same
    subst k
    simp
  · rename_i other
    simp only [Ne.symm other, if_false]
    split
    · rename_i same
      subst k
      simp
    · rename_i neither
      simp only [Ne.symm neither, if_false]

theorem exchange_perm {items : List T} {a b : Nat} {x y : T} (left : items[a]? = some x)
    (right : items[b]? = some y) : (exchange items a b x y).Perm items := by
  obtain ⟨a_lt, rfl⟩ := List.getElem?_eq_some_iff.mp left
  obtain ⟨b_lt, rfl⟩ := List.getElem?_eq_some_iff.mp right
  exact List.set_set_perm a_lt b_lt

theorem exchange_length (items : List T) (a b : Nat) (x y : T) :
    (exchange items a b x y).length = items.length := by
  simp [exchange]

section Order
variable {le : T → T → Prop} {items : List T} {i : Nat}

theorem ordered_of_loose (loose : Loose le items i) (above : Above le items i)
    (below : Below le items i) : Ordered le items := by
  intro c positive
  rcases eq_or_ne c i with here | elsewhere
  · subst c
    exact above positive
  · rcases eq_or_ne (parent c) i with child | stranger
    · have edge := below c positive child
      rw [← child] at edge
      exact edge
    · exact loose.apart c positive elsewhere stranger

theorem append_loose (ordered : Ordered le items) (x : T) :
    Loose le (items ++ [x]) items.length ∧ Below le (items ++ [x]) items.length := by
  have childless : ∀ c, 0 < c → parent c = items.length → (items ++ [x])[c]? = none := by
    intro c positive child
    have := parent_lt positive
    apply List.getElem?_eq_none
    simp only [List.length_append, List.length_singleton]
    omega
  have old : ∀ k z, k ≠ items.length → (items ++ [x])[k]? = some z → items[k]? = some z := by
    intro k z other found
    have k_lt := (List.getElem?_eq_some_iff.mp found).1
    simp only [List.length_append, List.length_singleton] at k_lt
    rwa [List.getElem?_append_left (by omega)] at found
  constructor
  · constructor
    · intro c positive elsewhere stranger y z up down
      exact ordered c positive y z (old _ _ stranger up) (old _ _ elsewhere down)
    · intro c positive child _ y z _ down
      rw [childless c positive child] at down
      cases down
  · intro c positive child y z _ down
    rw [childless c positive child] at down
    cases down

theorem dropLast_ordered (ordered : Ordered le items) : Ordered le items.dropLast := by
  have old : ∀ (k : Nat) (z : T), items.dropLast[k]? = some z → items[k]? = some z := by
    intro k z found
    rw [List.getElem?_dropLast] at found
    split at found
    · exact found
    · cases found
  intro c positive x y up down
  exact ordered c positive x y (old _ _ up) (old _ _ down)

variable (trans : ∀ x y z, le x y → le y z → le x z)
include trans

/-- Writing one entry loosens the heap there and nowhere else. -/
theorem set_loose (ordered : Ordered le items) (inside : i < items.length) (z : T) :
    Loose le (items.set i z) i := by
  have kept : ∀ k, k ≠ i → (items.set i z)[k]? = items[k]? := by
    intro k other
    rw [List.getElem?_set, if_neg (Ne.symm other)]
  constructor
  · intro c positive elsewhere stranger
    unfold Edge
    rw [kept c elsewhere, kept (parent c) stranger]
    exact ordered c positive
  · intro c positive child interior
    have lower := parent_lt positive
    have upper := parent_lt interior
    unfold Edge
    rw [kept c (by omega), kept (parent i) (by omega)]
    intro x y up down
    obtain ⟨old, middle⟩ : ∃ old, items[i]? = some old := ⟨_, List.getElem?_eq_getElem inside⟩
    have first := ordered i interior x old up middle
    have second := ordered c positive old y (child ▸ middle) down
    exact trans _ _ _ first second

/-- Changing the rank of one entry loosens the heap at its position. -/
theorem rerank_loose {before : T → T → Prop} (ordered : Ordered le items) (nodup : items.Nodup)
    {item : T} (place : items[i]? = some item)
    (unchanged : ∀ x y, x ≠ item → y ≠ item → le x y → before x y) : Loose before items i := by
  have others : ∀ k z, k ≠ i → items[k]? = some z → z ≠ item := by
    intro k z other found same
    subst z
    obtain ⟨k_lt, at_k⟩ := List.getElem?_eq_some_iff.mp found
    obtain ⟨i_lt, at_i⟩ := List.getElem?_eq_some_iff.mp place
    exact other ((List.Nodup.getElem_inj_iff nodup).mp (at_k.trans at_i.symm))
  constructor
  · intro c positive elsewhere stranger x y up down
    exact unchanged x y (others _ _ stranger up) (others _ _ elsewhere down)
      (ordered c positive x y up down)
  · intro c positive child interior x y up down
    have lower := parent_lt positive
    have upper := parent_lt interior
    have first := ordered i interior x item up place
    have second := ordered c positive item y (child ▸ place) down
    apply unchanged x y (others _ _ (by omega) up) (others _ _ (by omega) down)
    exact trans _ _ _ first second

theorem root_least (refl : ∀ x, le x x) (ordered : Ordered le items) {root : T}
    (top : items[0]? = some root) (k : Nat) (x : T) (found : items[k]? = some x) : le root x := by
  induction k using Nat.strongRecOn generalizing x with
  | ind k ih =>
    rcases Nat.eq_zero_or_pos k with zero | positive
    · subst k
      rw [top] at found
      cases found
      exact refl root
    · have lower := parent_lt positive
      have k_lt := (List.getElem?_eq_some_iff.mp found).1
      have above : items[parent k]? = some items[parent k] := List.getElem?_eq_getElem (by omega)
      exact trans _ _ _ (ih _ lower _ above) (ordered k positive _ _ above found)

theorem rise (loose : Loose le items i) (positive : 0 < i) {x y : T} (here : items[i]? = some x)
    (up : items[parent i]? = some y) (smaller : le x y) :
    Loose le (exchange items i (parent i) x y) (parent i) ∧
      Below le (exchange items i (parent i) x y) (parent i) := by
  have upper := parent_lt positive
  have get := exchange_get here up
  -- the other child of the parent was in order with the old parent
  have sibling : ∀ c z, 0 < c → parent c = parent i → c ≠ i → items[c]? = some z → le y z := by
    intro c z c_positive same other found
    have lower := parent_lt c_positive
    have edge := loose.apart c c_positive other (by omega)
    exact edge y z (same ▸ up) found
  constructor
  · constructor
    · intro c c_positive elsewhere stranger
      have lower := parent_lt c_positive
      unfold Edge
      rw [get, get, if_neg stranger, if_neg elsewhere]
      intro u v first second
      rcases eq_or_ne (parent c) i with child | apart
      · rw [if_pos child] at first
        rw [if_neg (by omega)] at second
        cases first
        exact loose.across c c_positive child positive y v up second
      · rw [if_neg apart] at first
        rcases eq_or_ne c i with same | other
        · exact absurd (congrArg parent same) stranger
        · rw [if_neg other] at second
          exact loose.apart c c_positive other apart u v first second
    · intro c c_positive child interior
      have topmost := parent_lt interior
      have lower := parent_lt c_positive
      unfold Edge
      rw [get, get, if_neg (by omega), if_neg (by omega), if_neg (by omega)]
      intro u v first second
      have edge := loose.apart (parent i) interior (by omega) (by omega) u y first up
      rcases eq_or_ne c i with same | other
      · rw [if_pos same] at second
        cases second
        exact edge
      · rw [if_neg other] at second
        exact trans _ _ _ edge (sibling c v c_positive child other second)
  · intro c c_positive child
    have lower := parent_lt c_positive
    unfold Edge
    rw [get, get, if_pos rfl, if_neg (by omega)]
    intro u v first second
    cases first
    rcases eq_or_ne c i with same | other
    · rw [if_pos same] at second
      cases second
      exact smaller
    · rw [if_neg other] at second
      exact trans _ _ _ smaller (sibling c v c_positive child other second)

omit trans in
/-- One turn of the downward loop, towards a child that is before its sibling. -/
theorem sink (loose : Loose le items i) {c : Nat} (positive : 0 < c)
    (child : parent c = i) {x y : T} (here : items[i]? = some x) (down : items[c]? = some y)
    (smaller : le y x)
    (least : ∀ d z, 0 < d → parent d = i → d ≠ c → items[d]? = some z → le y z) :
    Loose le (exchange items i c x y) c ∧ Above le (exchange items i c x y) c := by
  have lower := parent_lt positive
  have get := exchange_get here down
  refine ⟨⟨?_, ?_⟩, ?_⟩
  · intro d d_positive elsewhere stranger
    have d_lower := parent_lt d_positive
    unfold Edge
    rw [get, get, if_neg stranger, if_neg elsewhere]
    intro u v first second
    rcases eq_or_ne (parent d) i with brother | apart
    · rw [if_pos brother] at first
      rw [if_neg (by omega)] at second
      cases first
      exact least d v d_positive brother elsewhere second
    · rw [if_neg apart] at first
      rcases eq_or_ne d i with same | other
      · subst d
        rw [if_pos rfl] at second
        cases second
        exact loose.across c positive child d_positive u y first down
      · rw [if_neg other] at second
        exact loose.apart d d_positive other apart u v first second
  · intro d d_positive grandchild _
    have d_lower := parent_lt d_positive
    unfold Edge
    rw [child, get, get, if_neg (by omega), if_pos rfl, if_neg (by omega), if_neg (by omega)]
    intro u v first second
    cases first
    have edge := loose.apart d d_positive (by omega) (by omega)
    exact edge y v (grandchild ▸ down) second
  · intro _
    unfold Edge
    rw [child, get, get, if_neg (by omega), if_pos rfl, if_pos rfl]
    intro u v first second
    cases first
    cases second
    exact smaller

end Order

end HeapOrder
