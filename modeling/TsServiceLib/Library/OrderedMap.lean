import Mathlib.Data.List.Nodup
import Mathlib.Data.List.Lookmap

/-!
Insertion-ordered finite maps, the abstract content of a JavaScript `Map`:
setting a present key keeps its place, setting a new key appends it, and
iteration follows the entries. No key occurs twice, by construction.
-/
namespace OrderedMaps

structure OrderedMap (K V : Type) where
  entries : List (K × V)
  nodup : (entries.map Prod.fst).Nodup

namespace OrderedMap
variable {K V : Type}

def empty : OrderedMap K V := ⟨[], List.nodup_nil⟩

def size (m : OrderedMap K V) : Nat := m.entries.length

def keys (m : OrderedMap K V) : List K := m.entries.map Prod.fst

theorem absent_append_nodup {k : K} {v : V} {entries : List (K × V)}
    (nodup : (entries.map Prod.fst).Nodup) (absent : k ∉ entries.map Prod.fst) :
    ((entries ++ [(k, v)]).map Prod.fst).Nodup := by
  rw [List.map_append, List.nodup_append]
  refine ⟨nodup, List.nodup_singleton k, ?_⟩
  intro a ha b hb same
  rw [List.map_singleton, List.mem_singleton] at hb
  rw [same, hb] at ha
  exact absent ha

variable [DecidableEq K]

def get (m : OrderedMap K V) (k : K) : Option V := (m.entries.find? (·.1 = k)).map Prod.snd

def has (m : OrderedMap K V) (k : K) : Bool := (m.get k).isSome

/-- Write the value of a present key in place. -/
def replace (k : K) (v : V) (entries : List (K × V)) : List (K × V) :=
  entries.map fun e => if e.1 = k then (e.1, v) else e

theorem replace_keys (k : K) (v : V) (entries : List (K × V)) :
    (replace k v entries).map Prod.fst = entries.map Prod.fst := by
  simp only [replace, List.map_map]
  apply List.map_congr_left
  intro e _
  simp only [Function.comp_apply]
  split <;> rfl

def set (m : OrderedMap K V) (k : K) (v : V) : OrderedMap K V :=
  if present : k ∈ m.entries.map Prod.fst then
    ⟨replace k v m.entries, (replace_keys k v m.entries).symm ▸ m.nodup⟩
  else
    ⟨m.entries ++ [(k, v)], absent_append_nodup m.nodup present⟩

def delete (m : OrderedMap K V) (k : K) : OrderedMap K V :=
  ⟨m.entries.filter (·.1 ≠ k), m.nodup.sublist (List.filter_sublist.map Prod.fst)⟩

theorem get_eq_some_iff (m : OrderedMap K V) (k : K) (v : V) :
    m.get k = some v ↔ (k, v) ∈ m.entries := by
  obtain ⟨entries, nodup⟩ := m
  simp only [get]
  induction entries with
  | nil => simp
  | cons e rest ih =>
    obtain ⟨k', v'⟩ := e
    simp only [List.map_cons, List.nodup_cons] at nodup
    by_cases same : k' = k
    · subst k'
      have fresh : (k, v) ∉ rest := fun mem => nodup.1 (List.mem_map_of_mem mem)
      simp only [decide_true, List.find?_cons_of_pos, Option.map_some, Option.some.injEq,
        List.mem_cons, Prod.mk.injEq, true_and, fresh, or_false]
      exact eq_comm
    · have other : k ≠ k' := fun h => same h.symm
      simpa [List.find?_cons, same, other] using ih nodup.2

theorem get_eq_none_iff (m : OrderedMap K V) (k : K) : m.get k = none ↔ k ∉ m.keys := by
  simp only [get, Option.map_eq_none_iff, List.find?_eq_none, keys, List.mem_map, not_exists,
    not_and, decide_eq_true_eq]

@[simp] theorem get_empty (k : K) : (empty : OrderedMap K V).get k = none := rfl

@[simp] theorem get_set_self (m : OrderedMap K V) (k : K) (v : V) : (m.set k v).get k = some v := by
  rw [get_eq_some_iff, set]
  split
  · rename_i present
    obtain ⟨e, mem, key⟩ := List.mem_map.mp present
    exact List.mem_map.mpr ⟨e, mem, by simp [key]⟩
  · simp

theorem get_set_of_ne (m : OrderedMap K V) {k j : K} (v : V) (other : j ≠ k) :
    (m.set k v).get j = m.get j := by
  apply Option.ext
  intro w
  rw [get_eq_some_iff, get_eq_some_iff, set]
  split
  · simp only [replace, List.mem_map]
    constructor
    · rintro ⟨e, mem, eq⟩
      split at eq
      · rename_i key
        exact absurd (key ▸ congrArg Prod.fst eq).symm other
      · exact eq ▸ mem
    · intro mem
      exact ⟨(j, w), mem, by simp [other]⟩
  · simp [other]

theorem get_set (m : OrderedMap K V) (k j : K) (v : V) :
    (m.set k v).get j = if j = k then some v else m.get j := by
  split
  · rename_i same
    rw [same, get_set_self]
  · rename_i other
    exact get_set_of_ne m v other

theorem get_delete (m : OrderedMap K V) (k j : K) :
    (m.delete k).get j = if j = k then none else m.get j := by
  apply Option.ext
  intro w
  split
  · rename_i same
    rw [get_eq_some_iff]
    simp [delete, same]
  · rename_i other
    rw [get_eq_some_iff, get_eq_some_iff]
    simp [delete, other]

@[simp] theorem get_delete_self (m : OrderedMap K V) (k : K) : (m.delete k).get k = none := by
  simp [get_delete]

theorem delete_absent (m : OrderedMap K V) {k : K} (absent : m.get k = none) : m.delete k = m := by
  have missing := (get_eq_none_iff m k).mp absent
  obtain ⟨entries, nodup⟩ := m
  unfold delete
  congr 1
  apply List.filter_eq_self.mpr
  intro e mem
  have other : e.1 ≠ k := fun same => missing (same ▸ List.mem_map_of_mem mem)
  simpa using other

def setAll (m : OrderedMap K V) (entries : List (K × V)) : OrderedMap K V :=
  entries.foldl (fun acc e => acc.set e.1 e.2) m

/-- Set the entries whose keys are not there yet. -/
def addAbsent (m : OrderedMap K V) (entries : List (K × V)) : OrderedMap K V :=
  entries.foldl (fun acc e => if acc.has e.1 then acc else acc.set e.1 e.2) m

theorem get_setAll_absent (m : OrderedMap K V) {entries : List (K × V)} {k : K}
    (absent : k ∉ entries.map Prod.fst) : (m.setAll entries).get k = m.get k := by
  induction entries generalizing m with
  | nil => rfl
  | cons e rest ih =>
    simp only [List.map_cons, List.mem_cons, not_or] at absent
    have tail := ih (m.set e.1 e.2) absent.2
    rw [get_set_of_ne m e.2 absent.1] at tail
    exact tail

theorem get_setAll_mem (m : OrderedMap K V) {entries : List (K × V)} {k : K} {v : V}
    (nodup : (entries.map Prod.fst).Nodup) (mem : (k, v) ∈ entries) :
    (m.setAll entries).get k = some v := by
  induction entries generalizing m with
  | nil => simp at mem
  | cons e rest ih =>
    simp only [List.map_cons, List.nodup_cons] at nodup
    rcases List.mem_cons.mp mem with same | tail
    · subst e
      have kept := get_setAll_absent (m.set k v) nodup.1
      rw [get_set_self] at kept
      exact kept
    · exact ih (m.set e.1 e.2) nodup.2 tail

section Sizes
variable (m : OrderedMap K V) (k : K) (v : V)

theorem has_mem : m.has k = true ↔ k ∈ m.entries.map Prod.fst := by
  have absent := get_eq_none_iff m k
  unfold has
  cases found : m.get k with
  | none => simpa [found, keys] using absent
  | some w =>
    rw [found] at absent
    have present : k ∈ m.keys := by
      by_contra missing
      cases absent.mpr missing
    simpa [keys] using present

theorem size_set : (m.set k v).size = m.size + if m.has k then 0 else 1 := by
  have present := has_mem m k
  unfold set size
  split
  · rename_i mem
    simp [replace, present.mpr mem]
  · rename_i missing
    have fresh : m.has k = false := Bool.eq_false_iff.mpr (fun found => missing (present.mp found))
    simp [fresh]

theorem size_delete : (m.delete k).size + (if m.has k then 1 else 0) = m.size := by
  have present := has_mem m k
  obtain ⟨entries, nodup⟩ := m
  unfold delete size
  dsimp only at present ⊢
  induction entries with
  | nil => simp [has, get]
  | cons e rest ih =>
    simp only [List.map_cons, List.nodup_cons] at nodup
    by_cases same : e.1 = k
    · have later : rest.filter (fun e' => decide (e'.1 ≠ k)) = rest := by
        apply List.filter_eq_self.mpr
        intro e' mem
        have other : e'.1 ≠ k := by
          intro again
          exact nodup.1 (by rw [same, ← again]; exact List.mem_map_of_mem mem)
        simpa using other
      rw [if_pos (present.mpr (by simp [same])), List.filter_cons_of_neg (by simp [same]), later]
      rfl
    · have tail := ih nodup.2 (has_mem ⟨rest, nodup.2⟩ k)
      have rest_has : has (⟨e :: rest, by simpa using nodup⟩ : OrderedMap K V) k = has ⟨rest, nodup.2⟩ k := by
        simp [has, get, same]
      rw [List.filter_cons_of_pos (by simpa using same), List.length_cons, List.length_cons, rest_has]
      omega

/-- After one entry has been added, the others are still absent. -/
theorem fresh_set {e : K × V} {rest : List (K × V)} (nodup : ((e :: rest).map Prod.fst).Nodup)
    (fresh : ∀ e' ∈ e :: rest, m.has e'.1 = false) : ∀ e' ∈ rest, (m.set e.1 e.2).has e'.1 = false := by
  intro e' mem
  have other : e'.1 ≠ e.1 := by
    intro again
    exact (List.nodup_cons.mp nodup).1 (by rw [← again]; exact List.mem_map_of_mem mem)
  have before := fresh e' (List.mem_cons_of_mem e mem)
  simpa [has, get_set_of_ne m e.2 other] using before

theorem size_setAll {entries : List (K × V)} (nodup : (entries.map Prod.fst).Nodup)
    (fresh : ∀ e ∈ entries, m.has e.1 = false) : (m.setAll entries).size = m.size + entries.length := by
  induction entries generalizing m with
  | nil => rfl
  | cons e rest ih =>
    have head := fresh e List.mem_cons_self
    have later := ih (m.set e.1 e.2) (List.nodup_cons.mp nodup).2 (fresh_set m nodup fresh)
    have first := size_set m e.1 e.2
    rw [head] at first
    change ((m.set e.1 e.2).setAll rest).size = m.size + (rest.length + 1)
    rw [later, first]
    simp only [Bool.false_eq_true, if_false]
    omega

theorem addAbsent_fresh {entries : List (K × V)} (nodup : (entries.map Prod.fst).Nodup)
    (fresh : ∀ e ∈ entries, m.has e.1 = false) : m.addAbsent entries = m.setAll entries := by
  induction entries generalizing m with
  | nil => rfl
  | cons e rest ih =>
    have head := fresh e List.mem_cons_self
    have later := ih (m.set e.1 e.2) (List.nodup_cons.mp nodup).2 (fresh_set m nodup fresh)
    unfold addAbsent setAll at later ⊢
    rw [List.foldl_cons, List.foldl_cons, head]
    exact later

end Sizes

theorem get_addAbsent (m other : OrderedMap K V) (k : K) :
    (m.addAbsent other.entries).get k = (m.get k).or (other.get k) := by
  have each : ∀ (entries : List (K × V)) (m : OrderedMap K V),
      (m.addAbsent entries).get k = (m.get k).or ((entries.find? (·.1 = k)).map Prod.snd) := by
    intro entries
    induction entries with
    | nil =>
      intro m
      simp [addAbsent]
    | cons e rest ih =>
      intro m
      have later := ih (if m.has e.1 then m else m.set e.1 e.2)
      change ((if m.has e.1 then m else m.set e.1 e.2).addAbsent rest).get k = _
      rw [later]
      by_cases same : e.1 = k
      · subst same
        cases found : m.get e.1 <;> simp [has, found]
      · have kept : (if m.has e.1 then m else m.set e.1 e.2).get k = m.get k := by
          split
          · rfl
          · exact get_set_of_ne m e.2 (Ne.symm same)
        rw [kept]
        simp [same]
  exact each other.entries m

theorem has_iff (m : OrderedMap K V) (k : K) : m.has k = true ↔ ∃ v, m.get k = some v := by
  simp [has, Option.isSome_iff_exists]

/-- The entries of another map over those of this one, as the spread of two records has them. -/
def spread (m other : OrderedMap K V) : OrderedMap K V := m.setAll other.entries

theorem get_spread (m other : OrderedMap K V) (k : K) : (m.spread other).get k = (other.get k).or (m.get k) := by
  cases found : other.get k with
  | none =>
    have absent := (get_eq_none_iff other k).mp found
    rw [spread, get_setAll_absent m absent]
    rfl
  | some v =>
    have mem := (get_eq_some_iff other k v).mp found
    rw [spread, get_setAll_mem m other.nodup mem]
    rfl

def filterKeys (keep : K → Bool) (m : OrderedMap K V) : OrderedMap K V :=
  ⟨m.entries.filter fun e => keep e.1, m.nodup.sublist (List.filter_sublist.map Prod.fst)⟩

theorem get_filterKeys (keep : K → Bool) (m : OrderedMap K V) (k : K) :
    (m.filterKeys keep).get k = if keep k then m.get k else none := by
  apply Option.ext
  intro v
  have kept : (m.filterKeys keep).get k = some v ↔ (k, v) ∈ m.entries ∧ keep k = true := by
    rw [get_eq_some_iff]
    exact List.mem_filter
  cases wanted : keep k <;> simp [kept, wanted, get_eq_some_iff]

def mapValues {W : Type} (f : V → W) (m : OrderedMap K V) : OrderedMap K W :=
  ⟨m.entries.map fun e => (e.1, f e.2), by simpa [List.map_map, Function.comp_def] using m.nodup⟩

theorem get_mapValues {W : Type} (f : V → W) (m : OrderedMap K V) (k : K) :
    (m.mapValues f).get k = (m.get k).map f := by
  simp only [get, mapValues, List.find?_map, Option.map_map, Function.comp_def]

/-- The values that `read` has for some keys, set one after the other. -/
def collect (keys : List K) (read : K → Option V) : OrderedMap K V :=
  keys.foldl (fun m k => match read k with
    | some v => m.set k v
    | none => m) empty

theorem get_collect (keys : List K) (read : K → Option V) (k : K) :
    (collect keys read).get k = if k ∈ keys then read k else none := by
  have each : ∀ (keys : List K) (m : OrderedMap K V),
      (keys.foldl (fun m k => match read k with
        | some v => m.set k v
        | none => m) m).get k = if k ∈ keys then (read k).or (m.get k) else m.get k := by
    intro keys
    induction keys with
    | nil => simp
    | cons first rest ih =>
      intro m
      rw [List.foldl_cons, ih]
      by_cases same : k = first
      · subst same
        cases found : read k <;> simp
      · cases found : read first <;> simp [get_set, same]
  have whole := each keys empty
  simpa [collect] using whole

end OrderedMap

end OrderedMaps
