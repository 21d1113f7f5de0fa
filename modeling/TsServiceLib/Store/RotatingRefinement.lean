import TsServiceLib.Store.RotatingMap

/-!
The rotating map does what one map does. A key that is stored has a place, which
never changes, and is in one generation of the shard there; a rotation keeps what
a shard finds. So every program sees the same results from either map.
-/
namespace RotatingMaps
open OrderedMaps Function Unicode
variable {V E : Type} {decimal : ℚ → String}

namespace RotatingMap
variable {m : RotatingMap V} {key k : Key} {i : Fin shardCount}

/-- Where the entries of the key are, once it can have any. -/
def placeOf (decimal : ℚ → String) (m : RotatingMap V) (key : Key) : Option (Fin shardCount) :=
  match key.text decimal with
  | some text => some (place (hashString (utf16 (key.typeOf ++ ":").toList ++ text)))
  | none => (m.objectIds key).map fun id => place (mix id)

theorem placeOf_canonical (m : RotatingMap V) (key : Key) : m.placeOf decimal key.canonical = m.placeOf decimal key := by
  obtain ⟨types, texts⟩ := Key.canonical_text decimal key
  unfold placeOf
  rw [types, texts]
  match key with
  | .number .negativeZero => rfl
  | .number (.number _) => rfl
  | .string _ | .bigint _ | .boolean _ | .undefined | .null | .object _ | .function _ => rfl

/-- The first hash of an object gives it a number, and nothing else changes. -/
theorem shard_spec (decimal : ℚ → String) (m : RotatingMap V) (key : Key) :
    (m.shard decimal key).1.shards = m.shards ∧ (m.shard decimal key).1.minCapacity = m.minCapacity ∧
    (m.shard decimal key).1.placeOf decimal key = some (m.shard decimal key).2 ∧
    (∀ k j, m.placeOf decimal k = some j → (m.shard decimal key).1.placeOf decimal k = some j) ∧
    ∀ j, m.placeOf decimal key = some j → m.shard decimal key = (m, j) := by
  unfold shard hash
  cases written : key.text decimal with
  | some text => simp [placeOf, written]
  | none =>
    cases numbered : m.objectIds key with
    | some id => simp [placeOf, written, numbered]
    | none =>
      refine ⟨rfl, rfl, by simp [placeOf, written], ?_, by simp [placeOf, written, numbered]⟩
      intro k j placed
      have other : k ≠ key := by
        intro same
        subst same
        simp [placeOf, written, numbered] at placed
      simpa [placeOf, update_of_ne other] using placed

theorem shard_canonical (m : RotatingMap V) (key : Key) : m.shard decimal key.canonical = m.shard decimal key := by
  obtain ⟨types, texts⟩ := Key.canonical_text decimal key
  unfold shard hash
  rw [types, texts]
  match key with
  | .number .negativeZero => rfl
  | .number (.number _) => rfl
  | .string _ | .bigint _ | .boolean _ | .undefined | .null | .object _ | .function _ => rfl

theorem size_put (m : RotatingMap V) (i : Fin shardCount) (shard : Shard V) :
    (m.put i shard).size + (m.shards i).total = m.size + shard.total := by
  have here : (m.put i shard).size = shard.total + ∑ j ∈ Finset.univ.erase i, (m.shards j).total := by
    unfold size
    rw [← Finset.add_sum_erase Finset.univ _ (Finset.mem_univ i)]
    congr 1
    · simp [put]
    · apply Finset.sum_congr rfl
      intro j mem
      simp [put, update_of_ne (Finset.ne_of_mem_erase mem)]
  have before : m.size = (m.shards i).total + ∑ j ∈ Finset.univ.erase i, (m.shards j).total := by
    unfold size
    exact (Finset.add_sum_erase Finset.univ _ (Finset.mem_univ i)).symm
  omega

end RotatingMap

namespace Shard
variable {s : Shard V} {k : Key}

/-- No key is in both generations. -/
def Apart (s : Shard V) : Prop := ∀ k, s.current.get k = none ∨ s.previous.get k = none

theorem find_eq (s : Shard V) (k : Key) : s.find k = (s.current.get k).or (s.previous.get k) := by
  unfold find
  cases s.current.get k <;> rfl

theorem rotate_find (s : Shard V) (minCapacity : Nat) (k : Key) : (s.rotate minCapacity).find k = s.find k := by
  unfold rotate
  dsimp only
  split
  · rfl
  · rw [find_eq, find_eq, OrderedMap.get_addAbsent]
    rfl

theorem rotate_apart (apart : s.Apart) (minCapacity : Nat) : (s.rotate minCapacity).Apart := by
  intro k
  unfold rotate
  dsimp only
  split
  · exact apart k
  · exact .inl rfl

theorem rotate_total (apart : s.Apart) (minCapacity : Nat) : (s.rotate minCapacity).total = s.total := by
  have fresh : ∀ e ∈ s.previous.entries, s.current.has e.1 = false := by
    intro e mem
    have stored := (OrderedMap.get_eq_some_iff s.previous e.1 e.2).mpr mem
    rcases apart e.1 with absent | absent
    · simp [OrderedMap.has, absent]
    · rw [stored] at absent
      cases absent
  have merged := OrderedMap.addAbsent_fresh s.current s.previous.nodup fresh
  have size := OrderedMap.size_setAll s.current s.previous.nodup fresh
  unfold rotate
  dsimp only
  split
  · rfl
  · unfold total
    rw [merged, size]
    exact Nat.zero_add _

/-- One entry less: the key is gone, every other key is found where it was. -/
structure Drops (s : Shard V) (k : Key) (t : Shard V) : Prop where
  removed : ∀ j, t.find j = if j = k then none else s.find j
  apart : t.Apart
  total : t.total + 1 = s.total

theorem drops_current (apart : s.Apart) {e : Entry V} (stored : s.current.get k = some e) :
    s.Drops k { s with current := s.current.delete k } := by
  constructor
  · intro j
    rw [find_eq, find_eq, OrderedMap.get_delete]
    split
    · rename_i same
      have absent := (apart j).resolve_left (by rw [same, stored]; simp)
      simpa using absent
    · rfl
  · intro j
    rcases apart j with absent | absent
    · exact .inl (by rw [OrderedMap.get_delete, absent, ite_self])
    · exact .inr absent
  · have smaller := OrderedMap.size_delete s.current k
    rw [if_pos ((OrderedMap.has_iff _ _).mpr ⟨e, stored⟩)] at smaller
    unfold total
    dsimp only
    omega

theorem drops_previous (apart : s.Apart) (absent : s.current.get k = none) {e : Entry V}
    (stored : s.previous.get k = some e) : s.Drops k { s with previous := s.previous.delete k } := by
  constructor
  · intro j
    rw [find_eq, find_eq, OrderedMap.get_delete]
    split
    · rename_i same
      rw [same, absent]
      rfl
    · rfl
  · intro j
    rcases apart j with absent | absent
    · exact .inl absent
    · exact .inr (by rw [OrderedMap.get_delete, absent, ite_self])
  · have smaller := OrderedMap.size_delete s.previous k
    rw [if_pos ((OrderedMap.has_iff _ _).mpr ⟨e, stored⟩)] at smaller
    unfold total
    dsimp only
    omega

end Shard

structure Refines (decimal : ℚ → String) (m : RotatingMap V) (a : PlainMap V) : Prop where
  placed : ∀ {i k e}, (m.shards i).find k = some e → m.placeOf decimal k = some i
  apart : ∀ i, (m.shards i).Apart
  found : ∀ {k i}, m.placeOf decimal k = some i → a.get k = ((m.shards i).find k).map Entry.value
  none : ∀ {k}, m.placeOf decimal k = none → a.get k = none
  sized : m.size = a.size

section Steps
variable {m : RotatingMap V} {a : PlainMap V} {key : Key} {i : Fin shardCount}

theorem refines_empty (minCapacity : Nat) : Refines decimal (RotatingMap.empty minCapacity) (OrderedMap.empty : PlainMap V) := by
  constructor
  · intro i k e stored
    cases stored
  · intro i k
    exact .inl rfl
  · intro k i _
    rfl
  · intro k _
    rfl
  · simp [RotatingMap.size, RotatingMap.empty, Shard.total, Shard.empty, OrderedMap.size, OrderedMap.empty]

theorem refines_shard (h : Refines decimal m a) (key : Key) : Refines decimal (m.shard decimal key).1 a := by
  obtain ⟨shards, -, -, kept, -⟩ := RotatingMap.shard_spec decimal m key
  constructor
  · intro i k e stored
    rw [shards] at stored
    exact kept k i (h.placed stored)
  · intro i
    rw [shards]
    exact h.apart i
  · intro k i placed
    rw [shards]
    cases before : m.placeOf decimal k with
    | some j =>
      have same := kept k j before
      rw [placed] at same
      cases same
      exact h.found before
    | none =>
      have absent : (m.shards i).find k = none := by
        cases stored : (m.shards i).find k with
        | none => rfl
        | some e =>
          have there := h.placed stored
          rw [before] at there
          cases there
      rw [h.none before, absent]
      rfl
  · intro k placeless
    cases before : m.placeOf decimal k with
    | some j =>
      rw [kept k j before] at placeless
      cases placeless
    | none => exact h.none before
  · have same : (m.shard decimal key).1.size = m.size := by
      unfold RotatingMap.size
      rw [shards]
    rw [same]
    exact h.sized

theorem refines_put (h : Refines decimal m a) {shard : Shard V} {a' : PlainMap V}
    (placed : ∀ {k e}, shard.find k = some e → m.placeOf decimal k = some i) (apart : shard.Apart)
    (found : ∀ {k}, m.placeOf decimal k = some i → a'.get k = (shard.find k).map Entry.value)
    (others : ∀ {k}, m.placeOf decimal k ≠ some i → a'.get k = a.get k)
    (sized : shard.total + a.size = (m.shards i).total + a'.size) : Refines decimal (m.put i shard) a' := by
  have same : ∀ k, (m.put i shard).placeOf decimal k = m.placeOf decimal k := fun _ => rfl
  constructor
  · intro j k e stored
    rw [same]
    by_cases here : j = i
    · subst here
      exact placed (by simpa [RotatingMap.put] using stored)
    · exact h.placed (by simpa [RotatingMap.put, update_of_ne here] using stored)
  · intro j
    by_cases here : j = i
    · subst here
      simpa [RotatingMap.put] using apart
    · simpa [RotatingMap.put, update_of_ne here] using h.apart j
  · intro k j at_place
    rw [same] at at_place
    by_cases here : j = i
    · subst here
      simpa [RotatingMap.put] using found at_place
    · have elsewhere : m.placeOf decimal k ≠ some i := by
        rw [at_place]
        exact fun same => here (Option.some.inj same)
      rw [others elsewhere]
      simpa [RotatingMap.put, update_of_ne here] using h.found at_place
  · intro k placeless
    rw [same] at placeless
    rw [others (by rw [placeless]; simp)]
    exact h.none placeless
  · have replaced := RotatingMap.size_put m i shard
    have before := h.sized
    omega

theorem refines_store (h : Refines decimal m a) (at_place : m.placeOf decimal key = some i)
    (absent : (m.shards i).find key.canonical = none) (value : V) :
    Refines decimal (m.store i key value) (OrderedMap.set a key.canonical value) := by
  have here : m.placeOf decimal key.canonical = some i := (RotatingMap.placeOf_canonical m key).trans at_place
  rw [Shard.find_eq, Option.or_eq_none_iff] at absent
  apply refines_put h
  · intro k e stored
    by_cases same : k = key.canonical
    · rw [same]
      exact here
    · apply h.placed (i := i) (e := e)
      rw [Shard.find_eq] at stored ⊢
      rwa [OrderedMap.get_set_of_ne _ _ same] at stored
  · intro k
    by_cases same : k = key.canonical
    · rw [same]
      exact .inr absent.2
    · dsimp only
      rw [OrderedMap.get_set_of_ne _ _ same]
      exact h.apart i k
  · intro k at_i
    rw [Shard.find_eq]
    dsimp only
    by_cases same : k = key.canonical
    · subst same
      simp
    · have before := h.found at_i
      rw [Shard.find_eq] at before
      rw [OrderedMap.get_set_of_ne _ _ same, OrderedMap.get_set_of_ne _ _ same]
      exact before
  · intro k elsewhere
    have other : k ≠ key.canonical := by
      intro same
      rw [same] at elsewhere
      exact elsewhere here
    exact OrderedMap.get_set_of_ne _ _ other
  · have fresh : a.has key.canonical = false := by
      have before := h.found here
      rw [Shard.find_eq, absent.1, absent.2] at before
      simp [OrderedMap.has, before]
    have mine : (m.shards i).current.has key.canonical = false := by simp [OrderedMap.has, absent.1]
    have plain := OrderedMap.size_set a key.canonical value
    have own := OrderedMap.size_set (m.shards i).current key.canonical (Entry.mk value)
    rw [fresh] at plain
    rw [mine] at own
    simp only [Bool.false_eq_true, if_false] at plain own
    unfold Shard.total
    dsimp only
    omega

/-- The key is taken out of the generation that has it. -/
theorem refines_delete (h : Refines decimal m a) (at_place : m.placeOf decimal key = some i) {shard : Shard V} {e : Entry V}
    (stored : (m.shards i).find key.canonical = some e) (drops : (m.shards i).Drops key.canonical shard) :
    Refines decimal (m.put i shard) (a.delete key.canonical) := by
  have here : m.placeOf decimal key.canonical = some i := (RotatingMap.placeOf_canonical m key).trans at_place
  apply refines_put h
  · intro k e' kept
    rw [drops.removed] at kept
    split at kept
    · cases kept
    · exact h.placed kept
  · exact drops.apart
  · intro k at_i
    rw [OrderedMap.get_delete, drops.removed]
    split
    · rfl
    · exact h.found at_i
  · intro k elsewhere
    rw [OrderedMap.get_delete, if_neg]
    intro same
    rw [same] at elsewhere
    exact elsewhere here
  · have found := h.found here
    rw [stored] at found
    have there : a.has key.canonical = true := (OrderedMap.has_iff _ _).mpr ⟨e.value, found⟩
    have plain := OrderedMap.size_delete a key.canonical
    have smaller := drops.total
    rw [if_pos there] at plain
    omega

theorem refines_rotateShard (h : Refines decimal m a) (i : Fin shardCount) : Refines decimal (m.rotateShard i) a := by
  apply refines_put h
  · intro k e stored
    rw [Shard.rotate_find] at stored
    exact h.placed stored
  · exact Shard.rotate_apart (h.apart i) _
  · intro k at_i
    rw [Shard.rotate_find]
    exact h.found at_i
  · intro k _
    rfl
  · rw [Shard.rotate_total (h.apart i)]

theorem refines_rotate (h : Refines decimal m a) : Refines decimal m.rotate a := by
  have same : ∀ k, m.rotate.placeOf decimal k = m.placeOf decimal k := fun _ => rfl
  constructor
  · intro i k e stored
    exact h.placed ((Shard.rotate_find _ m.minCapacity k).symm.trans stored)
  · intro i
    exact Shard.rotate_apart (h.apart i) _
  · intro k i at_i
    rw [same] at at_i
    exact (h.found at_i).trans (congrArg _ (Shard.rotate_find _ m.minCapacity k).symm)
  · intro k placeless
    exact h.none placeless
  · have total : m.rotate.size = m.size := by
      unfold RotatingMap.size
      apply Finset.sum_congr rfl
      intro i _
      exact Shard.rotate_total (h.apart i) _
    rw [total]
    exact h.sized

theorem found_canonical (h : Refines decimal m a) (at_place : m.placeOf decimal key = some i) :
    a.get key.canonical = ((m.shards i).find key.canonical).map Entry.value :=
  h.found ((RotatingMap.placeOf_canonical m key).trans at_place)

theorem shard_found (h : Refines decimal m a) (key : Key) :
    Refines decimal (m.shard decimal key).1 a ∧ (m.shard decimal key).1.placeOf decimal key = some (m.shard decimal key).2 ∧
    a.get key.canonical =
      (((m.shard decimal key).1.shards (m.shard decimal key).2).find key.canonical).map Entry.value := by
  have after := refines_shard h key
  obtain ⟨-, -, placed, -, -⟩ := RotatingMap.shard_spec decimal m key
  exact ⟨after, placed, found_canonical after placed⟩

theorem refines_set (h : Refines decimal m a) (key : Key) (value : V) :
    (m.set (E := E) decimal key value).2 = (PlainMap.set a key value).2 ∧
    Refines decimal (m.set (E := E) decimal key value).1 (PlainMap.set (E := E) a key value).1 := by
  obtain ⟨after, placed, found⟩ := shard_found h key
  unfold RotatingMap.set PlainMap.set
  generalize m.shard decimal key = hashed at after placed found
  obtain ⟨m', i⟩ := hashed
  dsimp only at after placed found ⊢
  have both : ((m'.shards i).current.has key.canonical || (m'.shards i).previous.has key.canonical) = a.has key.canonical := by
    rw [Shard.find_eq] at found
    unfold OrderedMap.has
    rw [found]
    cases (m'.shards i).current.get key.canonical <;> cases (m'.shards i).previous.get key.canonical <;> rfl
  rw [both]
  by_cases there : a.has key.canonical = true
  · rw [if_pos there, if_pos there]
    exact ⟨rfl, after⟩
  · rw [if_neg there, if_neg there]
    refine ⟨rfl, refines_store after placed ?_ value⟩
    cases stored : (m'.shards i).find key.canonical with
    | none => rfl
    | some e =>
      rw [stored] at found
      exact absurd ((OrderedMap.has_iff _ _).mpr ⟨e.value, found⟩) there

theorem refines_get (h : Refines decimal m a) (key : Key) :
    (m.get decimal key).2 = PlainMap.lookup a key ∧ Refines decimal (m.get decimal key).1 a := by
  obtain ⟨after, placed, found⟩ := shard_found h key
  unfold RotatingMap.get PlainMap.lookup
  generalize m.shard decimal key = hashed at after placed found
  obtain ⟨m', i⟩ := hashed
  dsimp only at after placed found ⊢
  rw [found]
  cases (m'.shards i).find key.canonical with
  | none => exact ⟨rfl, after⟩
  | some e => exact ⟨rfl, after⟩

theorem refines_pop (h : Refines decimal m a) (key : Key) :
    (m.pop decimal key).2 = (PlainMap.pop a key).2 ∧ Refines decimal (m.pop decimal key).1 (PlainMap.pop a key).1 := by
  obtain ⟨after, placed, found⟩ := shard_found h key
  unfold RotatingMap.pop PlainMap.pop PlainMap.lookup
  generalize m.shard decimal key = hashed at after placed found
  obtain ⟨m', i⟩ := hashed
  dsimp only at after placed found ⊢
  have apart := after.apart i
  rw [Shard.find_eq] at found
  cases current : (m'.shards i).current.get key.canonical with
  | some e =>
    rw [current] at found
    rw [found]
    refine ⟨rfl, refines_delete after placed (e := e) ?_ (Shard.drops_current apart current)⟩
    rw [Shard.find_eq, current]
    rfl
  | none =>
    rw [current, Option.none_or] at found
    cases previous : (m'.shards i).previous.get key.canonical with
    | some e =>
      rw [previous] at found
      rw [found]
      refine ⟨rfl, refines_delete after placed (e := e) ?_ (Shard.drops_previous apart current previous)⟩
      rw [Shard.find_eq, current, previous]
      rfl
    | none =>
      rw [previous] at found
      rw [found]
      rw [OrderedMap.delete_absent a found]
      exact ⟨rfl, after⟩

end Steps

section Places
variable {m : RotatingMap V} {k : Key} {j : Fin shardCount}

theorem set_placeOf (placed : m.placeOf decimal k = some j) (key : Key) (value : V) :
    (m.set (E := E) decimal key value).1.placeOf decimal k = some j := by
  obtain ⟨-, -, -, kept, -⟩ := RotatingMap.shard_spec decimal m key
  have after := kept k j placed
  unfold RotatingMap.set
  dsimp only
  split
  · exact after
  · exact after

theorem get_placeOf (placed : m.placeOf decimal k = some j) (key : Key) :
    (m.get decimal key).1.placeOf decimal k = some j := by
  obtain ⟨-, -, -, kept, -⟩ := RotatingMap.shard_spec decimal m key
  have after := kept k j placed
  unfold RotatingMap.get
  dsimp only
  split
  · exact after
  · exact after

theorem pop_placeOf (placed : m.placeOf decimal k = some j) (key : Key) :
    (m.pop decimal key).1.placeOf decimal k = some j := by
  obtain ⟨-, -, -, kept, -⟩ := RotatingMap.shard_spec decimal m key
  have after := kept k j placed
  unfold RotatingMap.pop
  dsimp only
  split
  · exact after
  · split
    · exact after
    · exact after

/-- A place that a key has it keeps through any run. -/
theorem run_placeOf (program : Program V E) (placed : m.placeOf decimal k = some j) :
    (program.run decimal m).map.placeOf decimal k = some j := by
  induction program generalizing m with
  | done outcome => exact placed
  | set key value next ih => exact ih _ (set_placeOf placed key value)
  | getOrCreate key factory next made ih =>
    obtain ⟨-, -, -, kept, -⟩ := RotatingMap.shard_spec decimal m key
    have after := kept k j placed
    unfold Program.run
    dsimp only
    split
    · exact ih _ after
    · have inner := made after
      split
      · exact ih _ inner
      · exact ih _ inner
  | get key next ih => exact ih _ (get_placeOf placed key)
  | pop key next ih => exact ih _ (pop_placeOf placed key)
  | size next ih => exact ih _ placed
  | rotateShard index next ih => exact ih placed
  | rotate next ih => exact ih placed

end Places

theorem touches_append (first second : List Key) (key : Key) :
    touches (first ++ second) key = (touches first key || touches second key) := List.any_append

theorem touches_other {keys : List Key} {key k : Key} (untouched : touches keys key = false) (mem : k ∈ keys) :
    key.canonical ≠ k.canonical := by
  intro same
  have found := (Key.sameValueZero_iff key k).mpr same
  have touched : touches keys key = true := List.any_eq_true.mpr ⟨k, mem, found⟩
  rw [untouched] at touched
  cases touched

/-- A run leaves the keys alone that it does not operate on. -/
theorem runPlain_untouched (program : Program V E) (a : PlainMap V) {key : Key}
    (untouched : touches (program.runPlain a).touched key = false) :
    (program.runPlain a).map.get key.canonical = a.get key.canonical := by
  induction program generalizing a with
  | done outcome => rfl
  | set k value next ih =>
    unfold Program.runPlain at untouched ⊢
    unfold PlainMap.set at untouched ⊢
    dsimp only at untouched ⊢
    have other := touches_other untouched (k := k) (by simp [Run.after])
    rw [Run.after, touches_append, Bool.or_eq_false_iff] at untouched
    have later := ih _ _ untouched.2
    refine later.trans ?_
    split
    · rfl
    · exact OrderedMap.get_set_of_ne _ _ other
  | getOrCreate k factory next made ih =>
    unfold Program.runPlain at untouched ⊢
    cases found : a.get k.canonical with
    | some value =>
      rw [found] at untouched
      dsimp only at untouched ⊢
      rw [Run.after, touches_append, Bool.or_eq_false_iff] at untouched
      exact ih _ a untouched.2
    | none =>
      rw [found] at untouched
      dsimp only at untouched ⊢
      split at untouched
      · rename_i value produced
        have other := touches_other untouched (k := k) (by simp [Run.after])
        rw [Run.after, touches_append, Bool.or_eq_false_iff] at untouched
        have inner : touches (factory.runPlain a).touched key = false := by
          have both := untouched.1
          simp only [touches, List.any_cons, Bool.or_eq_false_iff] at both
          exact both.2
        have later := ih _ _ untouched.2
        refine later.trans ?_
        rw [OrderedMap.get_set_of_ne _ _ other]
        exact made a inner
      · rename_i failure thrown
        rw [Run.after, touches_append, Bool.or_eq_false_iff] at untouched
        have inner : touches (factory.runPlain a).touched key = false := by
          have both := untouched.1
          simp only [touches, List.any_cons, Bool.or_eq_false_iff] at both
          exact both.2
        have later := ih _ _ untouched.2
        exact later.trans (made a inner)
  | get k next ih =>
    unfold Program.runPlain at untouched ⊢
    rw [Run.after, touches_append, Bool.or_eq_false_iff] at untouched
    exact ih _ a untouched.2
  | pop k next ih =>
    unfold Program.runPlain PlainMap.pop at untouched ⊢
    dsimp only at untouched ⊢
    have other := touches_other untouched (k := k) (by simp [Run.after])
    rw [Run.after, touches_append, Bool.or_eq_false_iff] at untouched
    have later := ih _ _ untouched.2
    refine later.trans ?_
    rw [OrderedMap.get_delete, if_neg other]
  | size next ih => exact ih _ a untouched
  | rotateShard index next ih => exact ih a untouched
  | rotate next ih => exact ih a untouched

/-- Two runs that saw the same, with the maps that they left. -/
structure Agree (decimal : ℚ → String) (r : Run (RotatingMap V) V E) (p : Run (PlainMap V) V E) : Prop where
  results : r.results = p.results
  outcome : r.outcome = p.outcome
  touched : r.touched = p.touched
  refines : Refines decimal r.map p.map

theorem agree_after {r : Run (RotatingMap V) V E} {p : Run (PlainMap V) V E} (h : Agree decimal r p)
    (results : List (Result V E)) (keys : List Key) (b b' : Bool) :
    Agree decimal (r.after results keys b) (p.after results keys b') where
  results := congrArg (results ++ ·) h.results
  outcome := h.outcome
  touched := congrArg (keys ++ ·) h.touched
  refines := h.refines

/-- The induction is over the program; a factory is one of its parts. -/
theorem run_agree (program : Program V E) {m : RotatingMap V} {a : PlainMap V} (h : Refines decimal m a)
    (quiet : (program.run decimal m).reentered = false) : Agree decimal (program.run decimal m) (program.runPlain a) := by
  induction program generalizing m a with
  | done outcome => exact ⟨rfl, rfl, rfl, h⟩
  | set key value next ih =>
    obtain ⟨same, after⟩ := refines_set (E := E) h key value
    unfold Program.run at quiet ⊢
    unfold Program.runPlain
    dsimp only at quiet ⊢
    rw [same] at quiet ⊢
    exact agree_after (ih _ after quiet) _ _ _ _
  | getOrCreate key factory next made ih =>
    obtain ⟨hashed, placed, found⟩ := shard_found h key
    unfold Program.run at quiet ⊢
    unfold Program.runPlain
    rw [found]
    generalize m.shard decimal key = located at hashed placed found quiet ⊢
    obtain ⟨m', i⟩ := located
    dsimp only at hashed placed found quiet ⊢
    cases stored : (m'.shards i).find key.canonical with
    | some e =>
      rw [stored] at quiet
      exact agree_after (ih _ hashed quiet) _ _ _ _
    | none =>
      rw [stored] at quiet found
      dsimp only [Option.map_none] at quiet ⊢ found
      cases produced : (factory.run decimal m').outcome with
      | ok value =>
        rw [produced] at quiet
        dsimp only at quiet ⊢
        simp only [Run.after, Bool.or_eq_false_iff] at quiet
        obtain ⟨⟨innerQuiet, untouched⟩, laterQuiet⟩ := quiet
        have inner := made hashed innerQuiet
        rw [inner.touched] at untouched
        have absent := (runPlain_untouched factory a untouched).trans found
        have still := run_placeOf factory placed
        have missing : ((factory.run decimal m').map.shards i).find key.canonical = none := by
          have nothing := found_canonical inner.refines still
          rw [absent] at nothing
          exact Option.map_eq_none_iff.mp nothing.symm
        rw [← inner.outcome, produced]
        dsimp only
        rw [inner.results, inner.touched]
        exact agree_after (ih _ (refines_store inner.refines still missing value) laterQuiet) _ _ _ _
      | error failure =>
        rw [produced] at quiet
        dsimp only at quiet ⊢
        simp only [Run.after, Bool.or_eq_false_iff] at quiet
        obtain ⟨⟨innerQuiet, -⟩, laterQuiet⟩ := quiet
        have inner := made hashed innerQuiet
        rw [← inner.outcome, produced]
        dsimp only
        rw [inner.results, inner.touched]
        exact agree_after (ih _ inner.refines laterQuiet) _ _ _ _
  | get key next ih =>
    obtain ⟨same, after⟩ := refines_get h key
    unfold Program.run at quiet ⊢
    unfold Program.runPlain
    dsimp only at quiet ⊢
    rw [same] at quiet ⊢
    exact agree_after (ih _ after quiet) _ _ _ _
  | pop key next ih =>
    obtain ⟨same, after⟩ := refines_pop h key
    unfold Program.run at quiet ⊢
    unfold Program.runPlain
    dsimp only at quiet ⊢
    rw [same] at quiet ⊢
    exact agree_after (ih _ after quiet) _ _ _ _
  | size next ih =>
    unfold Program.run at quiet ⊢
    unfold Program.runPlain
    have same : m.size = OrderedMap.size a := h.sized
    rw [same] at quiet ⊢
    exact agree_after (ih _ h quiet) _ _ _ _
  | rotateShard index next ih => exact ih (refines_rotateShard h index) quiet
  | rotate next ih => exact ih (refines_rotate h) quiet

theorem set_duplicate {m : RotatingMap V} {a : PlainMap V} (h : Refines decimal m a) {key : Key} {v : V}
    (there : a.get key.canonical = some v) (value : V) :
    m.set (E := E) decimal key value = (m, .error (.duplicateKey key)) := by
  cases place : m.placeOf decimal key with
  | none =>
    have nowhere := h.none ((RotatingMap.placeOf_canonical m key).trans place)
    rw [there] at nowhere
    cases nowhere
  | some i =>
    obtain ⟨-, -, -, -, again⟩ := RotatingMap.shard_spec decimal m key
    have found := found_canonical h place
    rw [there, Shard.find_eq] at found
    unfold RotatingMap.set
    rw [again i place]
    dsimp only
    rw [if_pos]
    unfold OrderedMap.has
    cases current : (m.shards i).current.get key.canonical with
    | some e => rfl
    | none =>
      cases previous : (m.shards i).previous.get key.canonical with
      | some e => rfl
      | none =>
        rw [current, previous] at found
        cases found

/- Whatever is done with the rotating map, with rotations of any shards in between,
   has the results that it has with one map, if no factory operates on the key
   that it is called for. In the map that is left a key has one shard for all
   that are the same and is in one generation of it, and a second `set` throws
   and changes nothing. -/
theorem rotating_map_refines (decimal : ℚ → String) (minCapacity : Nat) (program : Program V E)
    (quiet : (program.run decimal (RotatingMap.empty minCapacity)).reentered = false) :
    (program.run decimal (RotatingMap.empty minCapacity)).results = (program.runPlain OrderedMap.empty).results ∧
    (program.run decimal (RotatingMap.empty minCapacity)).outcome = (program.runPlain OrderedMap.empty).outcome ∧
    (∀ key, ((program.run decimal (RotatingMap.empty minCapacity)).map.get decimal key).2 =
      PlainMap.lookup (program.runPlain OrderedMap.empty).map key) ∧
    (program.run decimal (RotatingMap.empty minCapacity)).map.size =
      OrderedMap.size (program.runPlain OrderedMap.empty).map ∧
    (∀ a b, a.sameValueZero b = true → (program.run decimal (RotatingMap.empty minCapacity)).map.shard decimal a =
      (program.run decimal (RotatingMap.empty minCapacity)).map.shard decimal b) ∧
    (∀ i k, ((program.run decimal (RotatingMap.empty minCapacity)).map.shards i).current.get k = none ∨
      ((program.run decimal (RotatingMap.empty minCapacity)).map.shards i).previous.get k = none) ∧
    ∀ key value, (PlainMap.lookup (program.runPlain OrderedMap.empty).map key).2 = true →
      (program.run decimal (RotatingMap.empty minCapacity)).map.set (E := E) decimal key value =
        ((program.run decimal (RotatingMap.empty minCapacity)).map, .error (.duplicateKey key)) := by
  have agree := run_agree program (refines_empty minCapacity) quiet
  generalize program.run decimal (RotatingMap.empty minCapacity) = r at agree
  have h := agree.refines
  refine ⟨agree.results, agree.outcome, ?_, h.sized, ?_, h.apart, ?_⟩
  · intro key
    exact (refines_get h key).1
  · intro a b same
    rw [← RotatingMap.shard_canonical, (Key.sameValueZero_iff a b).mp same, RotatingMap.shard_canonical]
  · intro key value there
    unfold PlainMap.lookup at there
    split at there
    · rename_i v stored
      exact set_duplicate h stored value
    · cases there

/-- A value that is not there, under zero; then the negative zero, and an object
    whose factory looks at the first key. -/
def zeros : Program (Option Nat) Unit :=
  .set (.number (.number (.finite 0))) none fun _ =>
  .rotate <|
  .set (.number .negativeZero) (some 1) fun _ =>
  .getOrCreate (.object 7) (.get (.number .negativeZero) fun _ => .done (.ok (some 5))) fun _ =>
  .rotateShard 3 <|
  .size fun _ =>
  .pop (.number (.number (.finite 0))) fun _ => .done (.ok none)

theorem rotating_map_refines_zeros :
    (zeros.run (fun q => toString q.num) (RotatingMap.empty 0)).results =
      [.set (.ok ()), .set (.error (.duplicateKey (.number .negativeZero))), .lookup (some none, true),
        .created (.ok (some 5, false)), .size 2, .lookup (some none, true)] := by
  have quiet : (zeros.run (fun q => toString q.num) (RotatingMap.empty 0)).reentered = false := by decide +kernel
  rw [(rotating_map_refines (fun q => toString q.num) 0 zeros quiet).1]
  decide +kernel

end RotatingMaps
