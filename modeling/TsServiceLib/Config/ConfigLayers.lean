import TsServiceLib.Library.ObjectModel

/-!
Layers of configuration, merged one over the other. The keys of the base are
copied as own properties; those of the overlay are read from the result and
assigned to it, where `__proto__` is not an own property unless the base has it.
What is merged is made of new nodes. Every object that is no array is taken for a
mapping, also the dates, buffers, sets and maps that a document or the defaults
may hold; a copy of one keeps nothing but its properties.
-/
namespace ConfigLayers
open ObjectModel

def isRecord : Value → Bool
  | .object _ _ _ | .objectPrototype | .builtin _ _ _ => true
  | _ => false

/-- `Object.entries` of a record. -/
def entriesOf : Value → List (String × Value)
  | .object _ _ entries => entries
  | _ => []

/-- `free` is the number of the next node. -/
def cloneConfigValue : Value → Nat → Value × Nat
  | .array _ items, free =>
    let copies := cloneItems items (free + 1)
    (.array free copies.1, copies.2)
  | .object _ _ entries, free =>
    let copies := cloneEntries entries free
    (.object copies.2 .objectPrototype copies.1, copies.2 + 1)
  | .objectPrototype, free => (.object free .objectPrototype [], free + 1)
  | .builtin _ _ _, free => (.object free .objectPrototype [], free + 1)
  | value, free => (value, free)
where
  cloneItems : List Value → Nat → List Value × Nat
    | [], free => ([], free)
    | item :: rest, free =>
      let first := cloneConfigValue item free
      let others := cloneItems rest first.2
      (first.1 :: others.1, others.2)
  cloneEntries : List (String × Value) → Nat → List (String × Value) × Nat
    | [], free => ([], free)
    | (key, value) :: rest, free =>
      let first := cloneConfigValue value free
      let others := cloneEntries rest first.2
      ((key, first.1) :: others.1, others.2)

/-- `Object.fromEntries` of the copies of the entries of a mapping. -/
def copyOf (base : Value) (free : Nat) : Value × Nat :=
  let copies := cloneConfigValue.cloneEntries (entriesOf base) free
  (.object copies.2 .objectPrototype copies.1, copies.2 + 1)

def deepMerge : Value → Value → Nat → Value × Nat
  | base, .object _ _ overlay, free =>
    let copied := copyOf base free
    mergeEntries copied.1 overlay copied.2
  | base, _, free => copyOf base free
where
  /-- The loop over the entries of the overlay. -/
  mergeEntries : Value → List (String × Value) → Nat → Value × Nat
    | result, [], free => (result, free)
    | result, (key, value) :: rest, free =>
      let current := getProperty result key
      let merged :=
        if isRecord current && isRecord value then deepMerge current value free else cloneConfigValue value free
      mergeEntries (setProperty result key merged.1) rest merged.2

section Patches

/-- The numbers of the nodes of what is made are free ones. -/
structure Fresh (made : Value × Nat) (free : Nat) : Prop where
  counter : free ≤ made.2
  numbers : ∀ node ∈ nodes made.1, free ≤ node

/-- An assignment to a node, or to `Object.prototype`. -/
structure Change where
  target : Option Nat
  key : String
  value : Value

/-- How a tree shows the change; the own properties of a tree do not show one of `Object.prototype`. -/
def Change.apply (change : Change) (tree : Value) : Value :=
  match change.target with
  | some target => mutate target change.key change.value tree
  | none => tree

def nodeOf : Value → Option Nat
  | .object node _ _ | .array node _ => some node
  | _ => none

def missing (path : List String) : String := "environment patch path " ++ ".".intercalate path ++ " does not exist"

/-- The loop of `setPath` over the segments before the last. -/
def descend (path : List String) : Value → List String → Except String Value
  | current, [] => .ok current
  | current, segment :: rest =>
    if isRecord (getProperty current segment) then descend path (getProperty current segment) rest else .error (missing path)

def setPath (root : Value) (path : List String) (value : Value) : Except String Change :=
  match path.getLast? with
  | none => .error "environment patch path must not be empty"
  | some leaf => do
    let current ← descend path root path.dropLast
    if (lookup current leaf).isSome then return ⟨nodeOf current, leaf, value⟩ else throw (missing path)

/-- `parse` gets the next free number as well, for the nodes of what it makes of the text. -/
structure EnvironmentPatch where
  environment : String
  path : List String
  parse : String → Nat → Except String (Value × Nat)
  makes : ∀ raw free made, parse raw free = .ok made → Fresh made free

def applyEnvironment (environment : String → Option String) :
    Value → List EnvironmentPatch → Nat → List Change × Option String
  | _, [], _ => ([], none)
  | root, patch :: rest, free =>
    match environment patch.environment with
    | none => applyEnvironment environment root rest free
    | some raw =>
      match patch.parse raw free with
      | .error e => ([], some e)
      | .ok made =>
        match setPath root patch.path made.1 with
        | .error e => ([], some e)
        | .ok change =>
          let later := applyEnvironment environment (change.apply root) rest made.2
          (change :: later.1, later.2)

end Patches

section Trees

/-- A value without identity. `foreign` is an object that is no mapping: the name of
    its class, what it holds apart from properties, and its properties. -/
inductive Tree where
  | undefined
  | null
  | boolean (value : Bool)
  | number (value : Numbers.Number)
  | string (value : String)
  | array (items : List Tree)
  | object (entries : List (String × Tree))
  | foreign (name : String) (members : List Tree) (entries : List (String × Tree))

abbrev RecordTree := List (String × Tree)

def tree : Value → Tree
  | .undefined | .function => .undefined
  | .null => .null
  | .boolean value => .boolean value
  | .number value => .number value
  | .string value => .string value
  | .objectPrototype | .builtin _ _ _ => .object []
  | .array _ items => .array (treeItems items)
  | .object _ proto entries =>
    match proto with
    | .builtin name _ members => .foreign name (treeItems members) (treeEntries entries)
    | _ => .object (treeEntries entries)
where
  treeItems : List Value → List Tree
    | [] => []
    | item :: rest => tree item :: treeItems rest
  treeEntries : List (String × Value) → RecordTree
    | [] => []
    | (key, value) :: rest => (key, tree value) :: treeEntries rest

def copied : Tree → Tree
  | .array items => .array (copiedItems items)
  | .object entries | .foreign _ _ entries => .object (copiedEntries entries)
  | value => value
where
  copiedItems : List Tree → List Tree
    | [] => []
    | item :: rest => copied item :: copiedItems rest
  copiedEntries : RecordTree → RecordTree
    | [] => []
    | (key, value) :: rest => (key, copied value) :: copiedEntries rest

def regular : Tree → Bool
  | .array items => regularItems items
  | .object entries => regularEntries entries
  | .foreign _ _ _ => false
  | _ => true
where
  regularItems : List Tree → Bool
    | [] => true
    | item :: rest => regular item && regularItems rest
  regularEntries : RecordTree → Bool
    | [] => true
    | (_, value) :: rest => regular value && regularEntries rest

/-- A value as it is read from a document or written as a literal. A foreign object
    has no properties but the bytes of a buffer, under their indices. -/
inductive Plain : Value → Prop where
  | undefined : Plain .undefined
  | null : Plain .null
  | boolean (value : Bool) : Plain (.boolean value)
  | number (value : Numbers.Number) : Plain (.number value)
  | string (value : String) : Plain (.string value)
  | array (node : Nat) (items : List Value) (below : ∀ item ∈ items, Plain item) : Plain (.array node items)
  | object (node : Nat) (entries : List (String × Value)) (distinct : (entries.map Prod.fst).Nodup)
      (below : ∀ entry ∈ entries, Plain entry.2) : Plain (.object node .objectPrototype entries)
  | foreign (node : Nat) (name : String) (methods : List String) (members : List Value) (entries : List (String × Value))
      (distinct : (entries.map Prod.fst).Nodup)
      (bytes : ∀ entry ∈ entries, (arrayIndex entry.1).isSome = true ∧ ∃ byte, entry.2 = .number byte) :
      Plain (.object node (.builtin name methods members) entries)

/-- The root of a configuration tree. -/
structure Mapping where
  node : Nat
  entries : List (String × Value)
  plain : Plain (.object node .objectPrototype entries)

def Mapping.value (mapping : Mapping) : Value := .object mapping.node .objectPrototype mapping.entries

theorem tree_mapping (node : Nat) (entries : List (String × Value)) :
    tree (.object node .objectPrototype entries) = .object (tree.treeEntries entries) := by simp [tree]

theorem own_treeEntries (entries : List (String × Value)) (key : String) :
    own (tree.treeEntries entries) key = (own entries key).map tree := by
  induction entries with
  | nil => rfl
  | cons entry rest ih =>
    rw [tree.treeEntries, own_cons, own_cons, ih]
    split <;> rfl

theorem own_copiedEntries (entries : RecordTree) (key : String) :
    own (copied.copiedEntries entries) key = (own entries key).map copied := by
  induction entries with
  | nil => rfl
  | cons entry rest ih =>
    rw [copied.copiedEntries, own_cons, own_cons, ih]
    split <;> rfl

@[elab_as_elim]
theorem Tree.induct {P : Tree → Prop} (undefined : P .undefined) (null : P .null) (boolean : ∀ b, P (.boolean b))
    (number : ∀ n, P (.number n)) (string : ∀ text, P (.string text)) (array : ∀ items, (∀ t ∈ items, P t) → P (.array items))
    (object : ∀ entries, (∀ entry ∈ entries, P entry.2) → P (.object entries))
    (foreign : ∀ name members entries, (∀ t ∈ members, P t) → (∀ entry ∈ entries, P entry.2) → P (.foreign name members entries))
    (t : Tree) : P t := by
  have none' : ∀ t ∈ ([] : List Tree), P t := by simp
  have empty : ∀ entry ∈ ([] : RecordTree), P entry.2 := by simp
  have items : ∀ first rest, P first → (∀ t ∈ rest, P t) → ∀ t ∈ first :: rest, P t := by
    intro first rest one others
    exact List.forall_mem_cons.mpr ⟨one, others⟩
  have entries : ∀ (first : String × Tree) rest, P first.2 → (∀ entry ∈ rest, P entry.2) → ∀ entry ∈ first :: rest, P entry.2 := by
    intro first rest one others
    exact List.forall_mem_cons.mpr ⟨one, others⟩
  exact @Tree.rec P (fun items => ∀ t ∈ items, P t) (fun entries => ∀ entry ∈ entries, P entry.2)
    (fun entry => P entry.2) undefined null boolean number string array object foreign
    none' items empty entries (fun _ _ below => below) t

theorem copiedItems_eq_iff {items : List Tree} (below : ∀ t ∈ items, copied t = t ↔ regular t = true) :
    copied.copiedItems items = items ↔ regular.regularItems items = true := by
  induction items with
  | nil => simp [copied.copiedItems, regular.regularItems]
  | cons item rest ih =>
    rw [copied.copiedItems, regular.regularItems, List.cons.injEq, Bool.and_eq_true, below item List.mem_cons_self,
      ih fun t member => below t (List.mem_cons_of_mem _ member)]

theorem copiedEntries_eq_iff {entries : RecordTree} (below : ∀ entry ∈ entries, copied entry.2 = entry.2 ↔ regular entry.2 = true) :
    copied.copiedEntries entries = entries ↔ regular.regularEntries entries = true := by
  induction entries with
  | nil => simp [copied.copiedEntries, regular.regularEntries]
  | cons entry rest ih =>
    obtain ⟨key, value⟩ := entry
    rw [copied.copiedEntries, regular.regularEntries, List.cons.injEq, Bool.and_eq_true, Prod.mk.injEq,
      below (key, value) List.mem_cons_self, ih fun entry member => below entry (List.mem_cons_of_mem _ member)]
    simp

theorem copied_eq_iff (t : Tree) : copied t = t ↔ regular t = true := by
  induction t using Tree.induct with
  | array items below => rw [copied, regular, Tree.array.injEq, copiedItems_eq_iff below]
  | object entries below => rw [copied, regular, Tree.object.injEq, copiedEntries_eq_iff below]
  | foreign name members entries _ _ => simp [copied, regular]
  | undefined | null | boolean | number | string => simp [copied, regular]

theorem copiedItems_twice {items : List Tree} (below : ∀ t ∈ items, copied (copied t) = copied t) :
    copied.copiedItems (copied.copiedItems items) = copied.copiedItems items := by
  induction items with
  | nil => rfl
  | cons item rest ih =>
    simp only [copied.copiedItems]
    rw [below item List.mem_cons_self, ih fun t member => below t (List.mem_cons_of_mem _ member)]

theorem copiedEntries_twice {entries : RecordTree} (below : ∀ entry ∈ entries, copied (copied entry.2) = copied entry.2) :
    copied.copiedEntries (copied.copiedEntries entries) = copied.copiedEntries entries := by
  induction entries with
  | nil => rfl
  | cons entry rest ih =>
    simp only [copied.copiedEntries]
    rw [below entry List.mem_cons_self, ih fun other member => below other (List.mem_cons_of_mem _ member)]

theorem copied_twice (t : Tree) : copied (copied t) = copied t := by
  induction t using Tree.induct with
  | array items below => simp only [copied, copiedItems_twice below]
  | object entries below => simp only [copied, copiedEntries_twice below]
  | foreign name members entries _ below => simp only [copied, copiedEntries_twice below]
  | undefined | null | boolean | number | string => rfl

/-- What is taken for a mapping: the copy of it is one. -/
theorem copied_object_iff (value : Value) : (∃ entries, copied (tree value) = .object entries) ↔ isRecord value = true := by
  cases value with
  | object node proto entries => cases proto <;> simp [tree, copied, isRecord]
  | _ => simp [tree, copied, isRecord]

theorem copied_record {value : Value} (record : isRecord value = true) :
    copied (tree value) = .object (copied.copiedEntries (tree.treeEntries (entriesOf value))) := by
  cases value with
  | object node proto entries => cases proto <;> simp [tree, copied, entriesOf]
  | _ => simp_all [tree, copied, isRecord, entriesOf, tree.treeEntries, copied.copiedEntries]

end Trees

section Copies

theorem cloneItems_tree {items : List Value} (below : ∀ item ∈ items, ∀ free, tree (cloneConfigValue item free).1 = copied (tree item))
    (free : Nat) : tree.treeItems (cloneConfigValue.cloneItems items free).1 = copied.copiedItems (tree.treeItems items) := by
  induction items generalizing free with
  | nil => rfl
  | cons item rest ih =>
    simp only [cloneConfigValue.cloneItems, tree.treeItems, copied.copiedItems]
    rw [below item List.mem_cons_self, ih fun other member => below other (List.mem_cons_of_mem _ member)]

theorem cloneEntries_tree {entries : List (String × Value)}
    (below : ∀ entry ∈ entries, ∀ free, tree (cloneConfigValue entry.2 free).1 = copied (tree entry.2)) (free : Nat) :
    tree.treeEntries (cloneConfigValue.cloneEntries entries free).1 = copied.copiedEntries (tree.treeEntries entries) := by
  induction entries generalizing free with
  | nil => rfl
  | cons entry rest ih =>
    simp only [cloneConfigValue.cloneEntries, tree.treeEntries, copied.copiedEntries]
    rw [below entry List.mem_cons_self, ih fun other member => below other (List.mem_cons_of_mem _ member)]

theorem cloneConfigValue_tree (value : Value) (free : Nat) : tree (cloneConfigValue value free).1 = copied (tree value) := by
  induction value using Value.induct generalizing free with
  | array node items below =>
    simp only [cloneConfigValue, tree, copied]
    rw [cloneItems_tree below]
  | object node proto entries _ below =>
    simp only [cloneConfigValue]
    rw [copied_record rfl, tree_mapping, cloneEntries_tree below, entriesOf]
  | objectPrototype | builtin => rfl
  | undefined | null | boolean | number | string | function => rfl

theorem treeEntries_copies (entries : List (String × Value)) (free : Nat) :
    tree.treeEntries (cloneConfigValue.cloneEntries entries free).1 = copied.copiedEntries (tree.treeEntries entries) :=
  cloneEntries_tree (fun entry _ free => cloneConfigValue_tree entry.2 free) free

/-- An own property of the copies is the copy of one. -/
theorem own_copies (entries : List (String × Value)) (free : Nat) (key : String) :
    own (cloneConfigValue.cloneEntries entries free).1 key = none ∧ own entries key = none ∨
      ∃ value at', own entries key = some value ∧
        own (cloneConfigValue.cloneEntries entries free).1 key = some (cloneConfigValue value at').1 := by
  induction entries generalizing free with
  | nil => exact .inl ⟨rfl, rfl⟩
  | cons entry rest ih =>
    simp only [cloneConfigValue.cloneEntries, own_cons]
    by_cases same : entry.1 = key
    · simp only [same, if_true]
      exact .inr ⟨entry.2, free, rfl, rfl⟩
    · simp only [same, if_false]
      exact ih _

theorem cloneConfigValue_isRecord (value : Value) (free : Nat) : isRecord (cloneConfigValue value free).1 = isRecord value := by
  cases value <;> rfl

theorem cloneItems_fresh {items : List Value} (below : ∀ item ∈ items, ∀ free, Fresh (cloneConfigValue item free) free) (free : Nat) :
    free ≤ (cloneConfigValue.cloneItems items free).2 ∧
      ∀ item ∈ (cloneConfigValue.cloneItems items free).1, ∀ node ∈ nodes item, free ≤ node := by
  induction items generalizing free with
  | nil => simp [cloneConfigValue.cloneItems]
  | cons item rest ih =>
    have first := below item List.mem_cons_self free
    obtain ⟨later, others⟩ := ih (fun other member => below other (List.mem_cons_of_mem _ member)) (cloneConfigValue item free).2
    have start := first.counter
    refine ⟨by simp only [cloneConfigValue.cloneItems]; omega, ?_⟩
    intro copy member node inside
    simp only [cloneConfigValue.cloneItems] at member
    rcases List.mem_cons.mp member with rfl | member
    · exact first.numbers node inside
    · have bound := others copy member node inside
      omega

theorem cloneEntries_fresh {entries : List (String × Value)}
    (below : ∀ entry ∈ entries, ∀ free, Fresh (cloneConfigValue entry.2 free) free) (free : Nat) :
    free ≤ (cloneConfigValue.cloneEntries entries free).2 ∧
      ∀ entry ∈ (cloneConfigValue.cloneEntries entries free).1, ∀ node ∈ nodes entry.2, free ≤ node := by
  induction entries generalizing free with
  | nil => simp [cloneConfigValue.cloneEntries]
  | cons entry rest ih =>
    have first := below entry List.mem_cons_self free
    obtain ⟨later, others⟩ :=
      ih (fun other member => below other (List.mem_cons_of_mem _ member)) (cloneConfigValue entry.2 free).2
    have start := first.counter
    refine ⟨by simp only [cloneConfigValue.cloneEntries]; omega, ?_⟩
    intro copy member node inside
    simp only [cloneConfigValue.cloneEntries] at member
    rcases List.mem_cons.mp member with rfl | member
    · exact first.numbers node inside
    · have bound := others copy member node inside
      omega

theorem cloneConfigValue_fresh (value : Value) (free : Nat) : Fresh (cloneConfigValue value free) free := by
  induction value using Value.induct generalizing free with
  | array node items below =>
    obtain ⟨later, others⟩ := cloneItems_fresh below (free + 1)
    refine ⟨by simp only [cloneConfigValue]; omega, ?_⟩
    intro id member
    simp only [cloneConfigValue] at member
    rcases mem_nodes_array.1 member with here | ⟨item, there, inside⟩
    · omega
    · have bound := others item there id inside
      omega
  | object node proto entries _ below =>
    obtain ⟨later, others⟩ := cloneEntries_fresh below free
    refine ⟨by simp only [cloneConfigValue]; omega, ?_⟩
    intro id member
    simp only [cloneConfigValue] at member
    rcases mem_nodes_object.1 member with here | above | ⟨entry, there, inside⟩
    · omega
    · simp [nodes] at above
    · exact others entry there id inside
  | objectPrototype | builtin =>
    refine ⟨by simp [cloneConfigValue], ?_⟩
    intro id member
    simp only [cloneConfigValue] at member
    rcases mem_nodes_object.1 member with here | above | ⟨entry, there, -⟩
    · omega
    · simp [nodes] at above
    · cases there
  | undefined | null | boolean | number | string | function => exact ⟨Nat.le_refl _, by simp [cloneConfigValue, nodes]⟩

theorem copyOf_fresh (base : Value) (free : Nat) : Fresh (copyOf base free) free := by
  have below : ∀ entry ∈ entriesOf base, ∀ free, Fresh (cloneConfigValue entry.2 free) free :=
    fun entry _ free => cloneConfigValue_fresh entry.2 free
  obtain ⟨later, others⟩ := cloneEntries_fresh below free
  refine ⟨by simp only [copyOf]; omega, ?_⟩
  intro id member
  simp only [copyOf] at member
  rcases mem_nodes_object.1 member with here | above | ⟨entry, there, inside⟩
  · omega
  · simp [nodes] at above
  · exact others entry there id inside

theorem mergeEntries_fresh {overlay : List (String × Value)}
    (below : ∀ entry ∈ overlay, ∀ base free, Fresh (deepMerge base entry.2 free) free) {result : Value} {free start : Nat}
    (fresh : Fresh (result, free) start) : Fresh (deepMerge.mergeEntries result overlay free) start := by
  induction overlay generalizing result free with
  | nil => exact fresh
  | cons entry rest ih =>
    simp only [deepMerge.mergeEntries]
    refine ih (fun other member => below other (List.mem_cons_of_mem _ member)) ?_
    have from' := fresh.counter
    have step : Fresh (if (isRecord (getProperty result entry.1) && isRecord entry.2) = true then deepMerge (getProperty result entry.1) entry.2 free
        else cloneConfigValue entry.2 free) free := by
      split
      · exact below entry List.mem_cons_self _ free
      · exact cloneConfigValue_fresh entry.2 free
    have later := step.counter
    refine ⟨by dsimp only at from' ⊢; omega, ?_⟩
    intro node member
    rcases mem_nodes_setProperty member with before | added
    · exact fresh.numbers node before
    · have bound := step.numbers node added
      dsimp only at from'
      omega

theorem deepMerge_fresh (base overlay : Value) (free : Nat) : Fresh (deepMerge base overlay free) free := by
  induction overlay using Value.induct generalizing base free with
  | object node proto entries _ below =>
    simp only [deepMerge]
    exact mergeEntries_fresh below (copyOf_fresh base free)
  | undefined | null | boolean | number | string | function | objectPrototype | builtin | array => exact copyOf_fresh base free

end Copies

end ConfigLayers
