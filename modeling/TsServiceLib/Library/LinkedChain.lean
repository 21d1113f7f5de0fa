import Mathlib.Data.List.Nodup

/-!
Doubly linked chains in a memory of nodes. A chain lists the addresses in
order with the value each node carries; a segment of a chain is linked between
whatever stands before and after it, so that chains are cut and joined by
rewriting the two links at the seam.
-/
namespace LinkedChain
variable {T : Type}

structure Node (T : Type) where
  value : T
  previous : Option Nat
  next : Option Nat

def setNext (memory : List (Node T)) (a : Nat) (link : Option Nat) : List (Node T) :=
  memory.modify a fun node => { node with next := link }

def setPrevious (memory : List (Node T)) (a : Nat) (link : Option Nat) : List (Node T) :=
  memory.modify a fun node => { node with previous := link }

abbrev Chain (T : Type) := List (Nat × T)

/-- The first address of a segment, or what follows an empty one. -/
def first (chain : Chain T) (after : Option Nat) : Option Nat :=
  match chain with
  | [] => after
  | (a, _) :: _ => some a

/-- The last address of a segment, or what precedes an empty one. -/
def last (before : Option Nat) : Chain T → Option Nat
  | [] => before
  | (a, _) :: rest => last (some a) rest

def Linked (memory : List (Node T)) (before : Option Nat) : Chain T → Option Nat → Prop
  | [], _ => True
  | (a, v) :: rest, after =>
    memory[a]? = some ⟨v, before, first rest after⟩ ∧ Linked memory (some a) rest after

def addresses (chain : Chain T) : List Nat := chain.map Prod.fst

theorem setNext_other (memory : List (Node T)) {a b : Nat} (link : Option Nat) (other : b ≠ a) :
    (setNext memory a link)[b]? = memory[b]? := by
  simp [setNext, Ne.symm other]

theorem setPrevious_other (memory : List (Node T)) {a b : Nat} (link : Option Nat) (other : b ≠ a) :
    (setPrevious memory a link)[b]? = memory[b]? := by
  simp [setPrevious, Ne.symm other]

theorem setNext_here {memory : List (Node T)} {a : Nat} {node : Node T} (link : Option Nat)
    (here : memory[a]? = some node) : (setNext memory a link)[a]? = some { node with next := link } := by
  simp [setNext, here]

theorem setPrevious_here {memory : List (Node T)} {a : Nat} {node : Node T} (link : Option Nat)
    (here : memory[a]? = some node) :
    (setPrevious memory a link)[a]? = some { node with previous := link } := by
  simp [setPrevious, here]

theorem first_append (front back : Chain T) (after : Option Nat) :
    first (front ++ back) after = first front (first back after) := by
  cases front with
  | nil => rfl
  | cons cell rest => rfl

theorem last_append (before : Option Nat) (front back : Chain T) :
    last before (front ++ back) = last (last before front) back := by
  induction front generalizing before with
  | nil => rfl
  | cons cell rest ih => exact ih (some cell.1)

theorem last_concat (before : Option Nat) (front : Chain T) (cell : Nat × T) :
    last before (front ++ [cell]) = some cell.1 := by
  rw [last_append]
  rfl

theorem linked_append {memory : List (Node T)} {before after : Option Nat} {front back : Chain T} :
    Linked memory before (front ++ back) after ↔
      Linked memory before front (first back after) ∧ Linked memory (last before front) back after := by
  induction front generalizing before with
  | nil => simp [Linked, last]
  | cons cell rest ih =>
    have tail : Linked memory (some cell.1) (rest ++ back) after ↔
        Linked memory (some cell.1) rest (first back after) ∧
          Linked memory (last (some cell.1) rest) back after := ih
    simp only [List.cons_append, Linked, first_append, tail, last, and_assoc]

theorem linked_frame {memory memory' : List (Node T)} {before after : Option Nat} {chain : Chain T}
    (same : ∀ a ∈ addresses chain, memory'[a]? = memory[a]?)
    (linked : Linked memory before chain after) : Linked memory' before chain after := by
  induction chain generalizing before with
  | nil => trivial
  | cons cell rest ih =>
    have here := same cell.1 (List.mem_cons_self)
    refine ⟨here.trans linked.1, ih ?_ linked.2⟩
    intro a mem
    exact same a (List.mem_cons_of_mem _ mem)

theorem linked_reads {memory : List (Node T)} {before after : Option Nat} {chain : Chain T}
    (linked : Linked memory before chain after) {a : Nat} (mem : a ∈ addresses chain) :
    a < memory.length := by
  induction chain generalizing before with
  | nil => simp [addresses] at mem
  | cons cell rest ih =>
    rcases List.mem_cons.mp mem with here | later
    · subst here
      exact (List.getElem?_eq_some_iff.mp linked.1).1
    · exact ih linked.2 later

theorem relink_next {memory : List (Node T)} {before after : Option Nat} {front : Chain T}
    {cell : Nat × T} (link : Option Nat) (nodup : (addresses (front ++ [cell])).Nodup)
    (linked : Linked memory before (front ++ [cell]) after) :
    Linked (setNext memory cell.1 link) before (front ++ [cell]) link := by
  obtain ⟨head, tail⟩ := linked_append.mp linked
  apply linked_append.mpr
  constructor
  · apply linked_frame _ head
    intro a mem
    apply setNext_other
    intro same
    simp only [addresses, List.map_append, List.nodup_append] at nodup
    exact nodup.2.2 a mem cell.1 (by simp) same
  · exact ⟨setNext_here link tail.1, trivial⟩

theorem relink_previous {memory : List (Node T)} {before after : Option Nat} {rest : Chain T}
    {cell : Nat × T} (link : Option Nat) (nodup : (addresses (cell :: rest)).Nodup)
    (linked : Linked memory before (cell :: rest) after) :
    Linked (setPrevious memory cell.1 link) link (cell :: rest) after := by
  refine ⟨setPrevious_here link linked.1, ?_⟩
  apply linked_frame _ linked.2
  intro a mem
  apply setPrevious_other
  intro same
  subst same
  exact (List.nodup_cons.mp nodup).1 mem

end LinkedChain
