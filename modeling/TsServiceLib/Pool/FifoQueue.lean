import TsServiceLib.Library.LinkedChain
import TsServiceLib.Library.OrderedMap

/-!
The queue under the task pool: a doubly linked list with a map from each
queued value to its node, so that a cancelled task moves to the front without
a scan. It refines a plain list with push-back, pop-front and move-to-front.
-/
namespace Pools
open OrderedMaps LinkedChain

structure FifoQueue (T : Type) where
  memory : List (Node T)
  nodes : OrderedMap T Nat
  head : Option Nat
  tail : Option Nat

namespace FifoQueue
variable {T : Type}

def empty : FifoQueue T := ⟨[], .empty, none, none⟩

def length (q : FifoQueue T) : Nat := q.nodes.size

section Operations
variable [DecidableEq T]

def push (q : FifoQueue T) (value : T) : FifoQueue T :=
  let node := q.memory.length
  let memory := q.memory ++ [⟨value, q.tail, none⟩]
  { memory := match q.tail with
      | some tail => setNext memory tail (some node)
      | none => memory
    head := match q.tail with
      | some _ => q.head
      | none => some node
    tail := some node
    nodes := q.nodes.set value node }

/-- The queue after its head, the node `node`, has been taken out. -/
def behead (q : FifoQueue T) (node : Node T) : FifoQueue T :=
  { memory := match node.next with
      | some next => setPrevious q.memory next none
      | none => q.memory
    head := node.next
    tail := match node.next with
      | some _ => q.tail
      | none => none
    nodes := q.nodes.delete node.value }

def shift (q : FifoQueue T) : Option T × FifoQueue T :=
  match q.head with
  | none => (none, q)
  | some a =>
    match q.memory[a]? with
    | some node => (some node.value, q.behead node)
    -- references of the source never dangle
    | none => (none, q)

/-- Link the neighbours of a node to each other. -/
def unlink (q : FifoQueue T) (node : Node T) : FifoQueue T :=
  let memory := match node.previous with
    | some previous => setNext q.memory previous node.next
    | none => q.memory
  { q with
    memory := match node.next with
      | some next => setPrevious memory next node.previous
      | none => memory
    tail := match node.next with
      | some _ => q.tail
      | none => node.previous }

/-- Link an unlinked node in front of the head. -/
def linkFront (q : FifoQueue T) (a : Nat) : FifoQueue T :=
  let memory := setNext (setPrevious q.memory a none) a q.head
  { q with
    memory := match q.head with
      | some head => setPrevious memory head (some a)
      | none => memory
    head := some a }

def moveToFront (q : FifoQueue T) (value : T) : Bool × FifoQueue T :=
  match q.nodes.get value with
  | none => (false, q)
  | some a =>
    if q.head = some a then (false, q)
    else
      match q.memory[a]? with
      | some node => (true, (q.unlink node).linkFront a)
      | none => (false, q)

end Operations

/-- The queue holds a chain of nodes, and its map sends each value to its node. -/
structure Holds (q : FifoQueue T) (chain : Chain T) : Prop where
  linked : Linked q.memory none chain none
  head : q.head = first chain none
  tail : q.tail = last none chain
  nodup : (addresses chain).Nodup
  nodes : q.nodes.entries.Perm (chain.map Prod.swap)

/-- The abstract content of a queue, in dispatch order. -/
def Queued (q : FifoQueue T) (values : List T) : Prop :=
  ∃ chain : Chain T, Holds q chain ∧ values = chain.map Prod.snd

section Refinement
variable {q : FifoQueue T} {chain : Chain T}

theorem holds_keys (holds : Holds q chain) : q.nodes.keys.Perm (chain.map Prod.snd) := by
  have perm := holds.nodes.map Prod.fst
  simpa [OrderedMap.keys, List.map_map, Function.comp_def] using perm

theorem holds_values_nodup (holds : Holds q chain) : (chain.map Prod.snd).Nodup :=
  (holds_keys holds).nodup_iff.mp q.nodes.nodup

theorem queued_keys {values : List T} (queued : q.Queued values) : q.nodes.keys.Perm values := by
  obtain ⟨chain, holds, eq⟩ := queued
  rw [eq]
  exact holds_keys holds

theorem queued_empty : (empty : FifoQueue T).Queued [] := by
  refine ⟨[], ⟨trivial, rfl, rfl, List.nodup_nil, ?_⟩, rfl⟩
  exact List.Perm.refl _

variable [DecidableEq T]

theorem set_absent_entries (m : OrderedMap T Nat) {k : T} (v : Nat) (absent : k ∉ m.keys) :
    (m.set k v).entries = m.entries ++ [(k, v)] := by
  unfold OrderedMap.keys at absent
  simp only [OrderedMap.set, absent, ↓reduceDIte]

omit [DecidableEq T] in
theorem fresh_nodup (holds : Holds q chain) (value : T) :
    (addresses (chain ++ [(q.memory.length, value)])).Nodup := by
  simp only [addresses, List.map_append, List.map_singleton, List.nodup_append]
  refine ⟨holds.nodup, List.nodup_singleton _, ?_⟩
  intro a mem b fresh same
  have inside := linked_reads holds.linked mem
  simp only [List.mem_singleton] at fresh
  omega

omit [DecidableEq T] in
theorem grown_linked (holds : Holds q chain) (node : Node T) :
    Linked (q.memory ++ [node]) none chain none := by
  apply linked_frame _ holds.linked
  intro a mem
  exact List.getElem?_append_left (linked_reads holds.linked mem)

theorem push_holds (holds : Holds q chain) {value : T} (absent : value ∉ q.nodes.keys) :
    Holds (q.push value) (chain ++ [(q.memory.length, value)]) := by
  have distinct := fresh_nodup holds value
  have here : (q.memory ++ [⟨value, q.tail, none⟩])[q.memory.length]? = some ⟨value, q.tail, none⟩ := by
    simp
  have grown := grown_linked holds ⟨value, q.tail, none⟩
  have nodes : (q.push value).nodes.entries.Perm
      ((chain ++ [(q.memory.length, value)]).map Prod.swap) := by
    simp only [push, set_absent_entries _ _ absent, List.map_append, List.map_singleton, Prod.swap_prod_mk]
    exact holds.nodes.append_right _
  rcases List.eq_nil_or_concat chain with none | ⟨front, cell, shape⟩
  · subst none
    have tail : q.tail = Option.none := holds.tail
    refine ⟨?_, ?_, ?_, distinct, nodes⟩
    · simp only [push, tail]
      rw [tail] at here
      exact ⟨here, trivial⟩
    · simp [push, tail, first]
    · simp [push, last]
  · rw [List.concat_eq_append] at shape
    subst shape
    have tail : q.tail = some cell.1 := holds.tail.trans (last_concat none front cell)
    have other : q.memory.length ≠ cell.1 := by
      have inside : cell.1 < q.memory.length := linked_reads holds.linked (by simp [addresses])
      omega
    refine ⟨?_, ?_, ?_, distinct, nodes⟩
    · rw [tail] at grown here
      simp only [push, tail]
      apply linked_append.mpr
      constructor
      · exact relink_next _ holds.nodup grown
      · refine ⟨?_, trivial⟩
        rw [setNext_other _ _ other, here, last_concat]
        rfl
    · simp only [push, tail]
      rw [holds.head, first_append _ [_]]
      cases front <;> rfl
    · simp only [push, last_concat]

theorem push_queued {values : List T} (queued : q.Queued values) {value : T}
    (absent : value ∉ values) : (q.push value).Queued (values ++ [value]) := by
  have missing : value ∉ q.nodes.keys := fun mem => absent ((queued_keys queued).mem_iff.mp mem)
  obtain ⟨chain, holds, eq⟩ := queued
  refine ⟨_, push_holds holds missing, ?_⟩
  simp [eq]

theorem delete_perm (m : OrderedMap T Nat) {k : T} {v : Nat} {rest : List (T × Nat)}
    (perm : m.entries.Perm ((k, v) :: rest)) : (m.delete k).entries.Perm rest := by
  have keys := (perm.map Prod.fst).nodup_iff.mp m.nodup
  simp only [List.map_cons, List.nodup_cons] at keys
  have kept : rest.filter (·.1 ≠ k) = rest := by
    simp only [List.filter_eq_self, decide_eq_true_eq, ne_eq]
    intro e mem same
    exact keys.1 (same ▸ List.mem_map_of_mem mem)
  have filtered := perm.filter (·.1 ≠ k)
  rw [List.filter_cons_of_neg (by simp), kept] at filtered
  exact filtered

theorem shift_holds {cell : Nat × T} {rest : Chain T} (holds : Holds q (cell :: rest)) :
    (q.shift).1 = some cell.2 ∧ Holds (q.shift).2 rest := by
  obtain ⟨a, value⟩ := cell
  have head : q.head = some a := holds.head
  obtain ⟨here, linked⟩ := holds.linked
  have nodes : (q.nodes.delete value).entries.Perm (rest.map Prod.swap) := delete_perm _ holds.nodes
  have distinct := (List.nodup_cons.mp holds.nodup).2
  simp only [shift, head, here]
  refine ⟨trivial, ?_⟩
  cases rest with
  | nil => exact ⟨trivial, rfl, rfl, distinct, nodes⟩
  | cons next rest =>
    refine ⟨?_, rfl, ?_, distinct, nodes⟩
    · exact relink_previous none distinct linked
    · exact holds.tail

theorem shift_queued {value : T} {values : List T} (queued : q.Queued (value :: values)) :
    (q.shift).1 = some value ∧ (q.shift).2.Queued values := by
  obtain ⟨chain, holds, eq⟩ := queued
  cases chain with
  | nil => cases eq
  | cons cell rest =>
    obtain ⟨rfl, rfl⟩ := List.cons.inj eq
    obtain ⟨found, kept⟩ := shift_holds holds
    exact ⟨found, rest, kept, rfl⟩

theorem shift_empty (queued : q.Queued []) : q.shift = (none, q) := by
  obtain ⟨chain, holds, eq⟩ := queued
  have empty : chain = [] := by simpa using eq.symm
  subst empty
  have head : q.head = none := holds.head
  simp only [shift, head]

omit [DecidableEq T] in
theorem unlink_linked {front back : Chain T} {cell moved : Nat × T}
    (holds : Holds q (front ++ [cell] ++ moved :: back)) :
    let node : Node T := ⟨moved.2, some cell.1, first back none⟩
    Linked (q.unlink node).memory none (front ++ [cell] ++ back) none ∧
      (q.unlink node).memory[moved.1]? = some node ∧
      (q.unlink node).tail = last none (front ++ [cell] ++ back) := by
  intro node
  obtain ⟨before, here, after⟩ := linked_append.mp holds.linked
  have distinct := holds.nodup
  rw [addresses, List.map_append, List.nodup_append, List.map_cons, List.nodup_cons] at distinct
  obtain ⟨front_nodup, ⟨not_back, back_nodup⟩, apart⟩ := distinct
  have moved_cell : moved.1 ≠ cell.1 :=
    fun same => apart cell.1 (by simp) moved.1 List.mem_cons_self same.symm
  rw [last_concat] at here
  have seam := relink_next (first back none) front_nodup before
  have kept : Linked (setNext q.memory cell.1 (first back none)) (some moved.1) back none := by
    apply linked_frame _ after
    intro a mem
    apply setNext_other
    intro same
    exact apart cell.1 (by simp) a (List.mem_cons_of_mem _ mem) same.symm
  cases back with
  | nil =>
    refine ⟨?_, ?_, ?_⟩
    · simpa [unlink, node, first] using seam
    · simp only [unlink, node, first]
      rw [setNext_other _ _ moved_cell]
      exact here
    · simp [unlink, node, first, last_concat]
  | cons next rest =>
    have next_moved : moved.1 ≠ next.1 := fun same => not_back (same ▸ List.mem_cons_self)
    refine ⟨?_, ?_, ?_⟩
    · simp only [unlink, node, first]
      apply linked_append.mpr
      constructor
      · apply linked_frame _ seam
        intro a mem
        apply setPrevious_other
        intro same
        exact apart a (by simpa [addresses] using mem) next.1 (by simp) same
      · rw [last_concat]
        exact relink_previous _ back_nodup kept
    · simp only [unlink, node, first]
      rw [setPrevious_other _ _ next_moved, setNext_other _ _ moved_cell]
      exact here
    · have tail := holds.tail
      rw [last_append, last_concat] at tail
      simp only [unlink, node, first]
      rw [last_append, last_concat, tail]
      rfl

omit [DecidableEq T] in
theorem linkFront_linked {rest : Chain T} {cell moved : Nat × T} {node : Node T}
    (linked : Linked q.memory none (cell :: rest) none) (head : q.head = some cell.1)
    (here : q.memory[moved.1]? = some node) (value : node.value = moved.2)
    (nodup : (addresses (moved :: cell :: rest)).Nodup) :
    Linked (q.linkFront moved.1).memory none (moved :: cell :: rest) none := by
  obtain ⟨outside, distinct⟩ := List.nodup_cons.mp nodup
  have other : moved.1 ≠ cell.1 := fun same => outside (same ▸ List.mem_cons_self)
  have cleared := setPrevious_here none here
  have aimed := setNext_here (some cell.1) cleared
  have kept : Linked (setNext (setPrevious q.memory moved.1 none) moved.1 (some cell.1)) none
      (cell :: rest) none := by
    apply linked_frame _ linked
    intro a mem
    have apart : a ≠ moved.1 := fun same => outside (same ▸ mem)
    rw [setNext_other _ _ apart, setPrevious_other _ _ apart]
  simp only [linkFront, head]
  constructor
  · rw [setPrevious_other _ _ other, aimed, ← value]
    rfl
  · exact relink_previous _ distinct kept

theorem holds_get (holds : Holds q chain) {cell : Nat × T} (mem : cell ∈ chain) :
    q.nodes.get cell.2 = some cell.1 := by
  rw [OrderedMap.get_eq_some_iff]
  apply holds.nodes.mem_iff.mpr
  exact List.mem_map.mpr ⟨cell, mem, rfl⟩

theorem moveToFront_holds {front back : Chain T} {cell moved : Nat × T}
    (holds : Holds q (front ++ [cell] ++ moved :: back)) :
    (q.moveToFront moved.2).1 = true ∧
      Holds (q.moveToFront moved.2).2 (moved :: (front ++ [cell] ++ back)) := by
  have found := holds_get holds (List.mem_append_right _ List.mem_cons_self)
  have order : (front ++ [cell] ++ moved :: back).Perm (moved :: (front ++ [cell] ++ back)) :=
    List.perm_middle
  have distinct : (addresses (moved :: (front ++ [cell] ++ back))).Nodup :=
    (order.map Prod.fst).nodup_iff.mp holds.nodup
  have here := (linked_append.mp holds.linked).2.1
  rw [last_concat] at here
  have unlinked := unlink_linked holds
  -- the front is not empty, so the head of the chain stays where it is
  obtain ⟨lead, tail, shape⟩ : ∃ lead tail, front ++ [cell] = lead :: tail := by
    cases front with
    | nil => exact ⟨cell, [], rfl⟩
    | cons lead tail => exact ⟨lead, tail ++ [cell], rfl⟩
  have head : q.head = some lead.1 := by
    rw [holds.head, shape]
    rfl
  have nodes := holds.nodes.trans (order.map Prod.swap)
  rw [shape] at unlinked distinct nodes ⊢
  obtain ⟨linked, isolated, end_at⟩ := unlinked
  have other : lead.1 ≠ moved.1 := by
    intro same
    apply (List.nodup_cons.mp distinct).1
    rw [← same]
    exact List.mem_cons_self
  have kept : (q.unlink ⟨moved.2, some cell.1, first back none⟩).head = some lead.1 := head
  simp only [moveToFront, found, head, here, Option.some.injEq, other, if_false]
  refine ⟨trivial, ?_, rfl, ?_, distinct, ?_⟩
  · exact linkFront_linked linked kept isolated rfl distinct
  · exact end_at
  · exact nodes

theorem moveToFront_absent {values : List T} (queued : q.Queued values) {value : T}
    (absent : value ∉ values) : q.moveToFront value = (false, q) := by
  have missing : q.nodes.get value = none := by
    rw [OrderedMap.get_eq_none_iff]
    exact fun mem => absent ((queued_keys queued).mem_iff.mp mem)
  simp only [moveToFront, missing]

theorem moveToFront_queued {values : List T} (queued : q.Queued values) {value : T}
    (mem : value ∈ values) : (q.moveToFront value).2.Queued (value :: values.erase value) := by
  obtain ⟨chain, holds, eq⟩ := queued
  have distinct := holds_values_nodup holds
  rw [eq] at mem ⊢
  obtain ⟨moved, place, rfl⟩ := List.mem_map.mp mem
  obtain ⟨front, back, shape⟩ := List.append_of_mem place
  subst shape
  have erased : ((front ++ moved :: back).map Prod.snd).erase moved.2 = (front ++ back).map Prod.snd := by
    rw [List.map_append, List.map_cons, List.nodup_append] at distinct
    have outside : moved.2 ∉ front.map Prod.snd :=
      fun member => distinct.2.2 moved.2 member moved.2 List.mem_cons_self rfl
    rw [List.map_append, List.map_cons, List.erase_append_right _ outside, List.erase_cons_head,
      List.map_append]
  rw [erased]
  rcases List.eq_nil_or_concat front with none | ⟨init, cell, concat⟩
  · subst none
    have found := holds_get holds place
    have head : q.head = some moved.1 := holds.head
    simp only [moveToFront, found, head, if_true]
    exact ⟨_, holds, rfl⟩
  · rw [List.concat_eq_append] at concat
    subst concat
    exact ⟨_, (moveToFront_holds holds).2, rfl⟩

end Refinement

end FifoQueue

end Pools
