import Mathlib.Data.List.Basic
import Mathlib.Data.List.Nodup
import TsServiceLib.Library.Number

/-!
Values with identity and inheritance. An object has properties of its own and a
prototype, through which it is read where it has none; an assignment replaces
an own property or makes one, except that `__proto__`, where it is inherited,
changes the prototype. Arrays and objects carry the number of their node, so
that a change to a node is seen in every tree that holds it, and in no other.

An instance of a built-in class, such as a date or a set, holds something apart
from its properties, and has its methods from a prototype that is no plain
object. Both are in `builtin`, which stands where the prototype does.
-/
namespace ObjectModel
open Numbers

/-- `function` is what is inherited under the names of built-in methods. -/
inductive Value where
  | undefined
  | null
  | boolean (value : Bool)
  | number (value : Number)
  | string (value : String)
  | function
  | objectPrototype
  | builtin (name : String) (methods : List String) (members : List Value)
  | array (node : Nat) (items : List Value)
  | object (node : Nat) (proto : Value) (entries : List (String × Value))

section Entries
variable {T : Type}

def own (entries : List (String × T)) (key : String) : Option T :=
  (entries.find? fun entry => entry.1 == key).map Prod.snd

def arrayIndex (key : String) : Option Nat :=
  key.toNat?.bind fun n => if toString n = key ∧ n < 4294967295 then some n else none

/-- Whether a key stands before another that was there first: indices come first, in ascending order. -/
def standsBefore (key there : String) : Bool :=
  match arrayIndex key, arrayIndex there with
  | none, _ => false
  | some _, none => true
  | some i, some j => i < j

/-- A new own property takes its place in the order of the keys. -/
def insertOwn (key : String) (value : T) : List (String × T) → List (String × T)
  | [] => [(key, value)]
  | entry :: rest =>
    if standsBefore key entry.1 then (key, value) :: entry :: rest else entry :: insertOwn key value rest

def replaceOwn (key : String) (value : T) (entries : List (String × T)) : List (String × T) :=
  entries.map fun entry => if entry.1 == key then (key, value) else entry

def defineOwn (key : String) (value : T) (entries : List (String × T)) : List (String × T) :=
  if (own entries key).isSome then replaceOwn key value entries else insertOwn key value entries

theorem own_cons (entry : String × T) (entries : List (String × T)) (key : String) :
    own (entry :: entries) key = if entry.1 = key then some entry.2 else own entries key := by
  unfold own
  by_cases same : entry.1 = key
  · simp [same]
  · simp [same, List.find?_cons_of_neg]

theorem own_none_iff {entries : List (String × T)} {key : String} :
    own entries key = none ↔ key ∉ entries.map Prod.fst := by
  induction entries with
  | nil => simp [own]
  | cons entry rest ih =>
    rw [own_cons]
    by_cases same : entry.1 = key
    · simp [same]
    · rw [if_neg same, ih]
      simp [Ne.symm same]

theorem own_insertOwn {entries : List (String × T)} {key : String} (fresh : own entries key = none) (value : T)
    (other : String) : own (insertOwn key value entries) other = if other = key then some value else own entries other := by
  induction entries with
  | nil =>
    rw [insertOwn, own_cons]
    by_cases same : other = key
    · simp [same]
    · simp [same, Ne.symm same]
  | cons entry rest ih =>
    rw [own_cons] at fresh
    split at fresh
    · cases fresh
    · rename_i apart
      unfold insertOwn
      split
      · rw [own_cons]
        by_cases same : other = key
        · simp [same]
        · simp [same, Ne.symm same]
      · rw [own_cons, ih fresh, own_cons]
        by_cases here : entry.1 = other
        · have ne : other ≠ key := fun same => apart (here.trans same)
          simp [here, ne]
        · simp [here]

theorem own_replaceOwn {entries : List (String × T)} {key : String} (there : (own entries key).isSome = true) (value : T)
    (other : String) : own (replaceOwn key value entries) other = if other = key then some value else own entries other := by
  have kept : ∀ rest : List (String × T), other ≠ key → own (replaceOwn key value rest) other = own rest other := by
    intro rest ne
    induction rest with
    | nil => rfl
    | cons entry rest ih =>
      rw [replaceOwn, List.map_cons, own_cons, own_cons]
      by_cases same : entry.1 = key
      · simp only [same, beq_self_eq_true, if_true, Ne.symm ne, if_false]
        exact ih
      · have apart : (entry.1 == key) = false := by simpa using same
        simp only [apart, Bool.false_eq_true, if_false]
        split
        · rfl
        · exact ih
  by_cases ne : other = key
  · subst ne
    rw [if_pos rfl]
    induction entries with
    | nil => cases there
    | cons entry rest ih =>
      rw [replaceOwn, List.map_cons, own_cons]
      by_cases same : entry.1 = other
      · simp [same]
      · have apart : (entry.1 == other) = false := by simpa using same
        simp only [apart, Bool.false_eq_true, if_false, same]
        rw [own_cons, if_neg same] at there
        exact ih there
  · rw [if_neg ne]
    exact kept entries ne

theorem own_defineOwn (entries : List (String × T)) (key : String) (value : T) (other : String) :
    own (defineOwn key value entries) other = if other = key then some value else own entries other := by
  unfold defineOwn
  split
  · rename_i there
    exact own_replaceOwn there value other
  · rename_i missing
    exact own_insertOwn (by simpa using missing) value other

end Entries

/-- The names of `Object.prototype`; `__proto__` is an accessor. -/
def objectMethods : List String :=
  ["constructor", "__defineGetter__", "__defineSetter__", "hasOwnProperty", "__lookupGetter__", "__lookupSetter__",
    "isPrototypeOf", "propertyIsEnumerable", "toString", "valueOf", "toLocaleString"]

/-- The names of `Array.prototype`, which inherits from `Object.prototype`. -/
def arrayMethods : List String :=
  ["at", "concat", "copyWithin", "fill", "find", "findIndex", "findLast", "findLastIndex", "lastIndexOf", "pop", "push",
    "reverse", "shift", "unshift", "slice", "sort", "splice", "includes", "indexOf", "join", "keys", "entries", "values",
    "forEach", "filter", "flat", "flatMap", "map", "every", "some", "reduce", "reduceRight", "toReversed", "toSorted",
    "toSpliced", "with"]

/-- What an object whose prototype is `receiver` reads from `Object.prototype`. -/
def fromObjectPrototype (receiver : Value) (key : String) : Option Value :=
  if key = "__proto__" then some receiver else if key ∈ objectMethods then some .function else none

/-- The property that is found from a prototype on, for an object whose prototype is `receiver`. -/
def inherited (receiver : Value) (key : String) : Value → Option Value
  | .object _ proto entries =>
    match own entries key with
    | some value => some value
    | none => inherited receiver key proto
  | .array _ items =>
    match arrayIndex key with
    | some i => if i < items.length then items[i]? else fromObjectPrototype receiver key
    | none =>
      if key = "length" then some (.number (.finite items.length))
      else if key ∈ arrayMethods then some .function
      else fromObjectPrototype receiver key
  | .builtin _ methods _ => if key ∈ methods then some .function else fromObjectPrototype receiver key
  | .objectPrototype => fromObjectPrototype receiver key
  | _ => none

/-- `key in value`, and the value found; `none` also for what has no properties. -/
def lookup (value : Value) (key : String) : Option Value :=
  match value with
  | .object _ proto entries =>
    match own entries key with
    | some found => some found
    | none => inherited proto key proto
  | .builtin _ methods _ => if key ∈ methods then some .function else fromObjectPrototype .objectPrototype key
  | .objectPrototype => fromObjectPrototype .null key
  | _ => none

def getProperty (value : Value) (key : String) : Value := (lookup value key).getD .undefined

/-- Whether an assignment to the key meets the accessor `__proto__` from a prototype on. -/
def meetsSetter (key : String) : Value → Bool
  | .object _ proto entries => (own entries key).isNone && meetsSetter key proto
  | .array _ _ => key = "__proto__"
  | .builtin _ _ _ => key = "__proto__"
  | .objectPrototype => key = "__proto__"
  | _ => false

/-- The accessor ignores what is neither an object nor null. -/
def prototypeFor (proto assigned : Value) : Value :=
  match assigned with
  | .object _ _ _ | .array _ _ | .builtin _ _ _ | .objectPrototype | .function | .null => assigned
  | .undefined | .boolean _ | .number _ | .string _ => proto

/-- `value[key] = assigned`, of an object. -/
def setProperty (value : Value) (key : String) (assigned : Value) : Value :=
  match value with
  | .object node proto entries =>
    if (own entries key).isNone && meetsSetter key proto then .object node (prototypeFor proto assigned) entries
    else .object node proto (defineOwn key assigned entries)
  | _ => value

section Nodes

@[elab_as_elim]
theorem Value.induct {P : Value → Prop} (undefined : P .undefined) (null : P .null) (boolean : ∀ b, P (.boolean b))
    (number : ∀ n, P (.number n)) (string : ∀ text, P (.string text)) (function : P .function)
    (objectPrototype : P .objectPrototype)
    (builtin : ∀ name methods members, (∀ v ∈ members, P v) → P (.builtin name methods members)) (array : ∀ node items, (∀ v ∈ items, P v) → P (.array node items))
    (object : ∀ node proto entries, P proto → (∀ entry ∈ entries, P entry.2) → P (.object node proto entries))
    (value : Value) : P value := by
  have none' : ∀ v ∈ ([] : List Value), P v := by simp
  have empty : ∀ entry ∈ ([] : List (String × Value)), P entry.2 := by simp
  have items : ∀ first rest, P first → (∀ v ∈ rest, P v) → ∀ v ∈ first :: rest, P v := by
    intro first rest one others
    exact List.forall_mem_cons.mpr ⟨one, others⟩
  have entries : ∀ (first : String × Value) rest, P first.2 → (∀ entry ∈ rest, P entry.2) → ∀ entry ∈ first :: rest, P entry.2 := by
    intro first rest one others
    exact List.forall_mem_cons.mpr ⟨one, others⟩
  exact @Value.rec P (fun items => ∀ v ∈ items, P v) (fun entries => ∀ entry ∈ entries, P entry.2)
    (fun entry => P entry.2) undefined null boolean number string function objectPrototype builtin array object
    none' items empty entries (fun _ _ below => below) value

/-- The nodes of a value, those of its prototypes included. -/
def nodes : Value → List Nat
  | .builtin _ _ members => nodesItems members
  | .array node items => node :: nodesItems items
  | .object node proto entries => node :: (nodes proto ++ nodesEntries entries)
  | _ => []
where
  nodesItems : List Value → List Nat
    | [] => []
    | item :: rest => nodes item ++ nodesItems rest
  nodesEntries : List (String × Value) → List Nat
    | [] => []
    | (_, value) :: rest => nodes value ++ nodesEntries rest

/-- A change to a node, as a tree that may hold the node shows it. -/
def mutate (target : Nat) (key : String) (assigned : Value) : Value → Value
  | .builtin name methods members => .builtin name methods (mutateItems members)
  | .array node items => .array node (mutateItems items)
  | .object node proto entries =>
    let below := Value.object node (mutate target key assigned proto) (mutateEntries entries)
    if node = target then setProperty below key assigned else below
  | value => value
where
  mutateItems : List Value → List Value
    | [] => []
    | item :: rest => mutate target key assigned item :: mutateItems rest
  mutateEntries : List (String × Value) → List (String × Value)
    | [] => []
    | (name, value) :: rest => (name, mutate target key assigned value) :: mutateEntries rest

theorem mem_nodesItems {id : Nat} {items : List Value} : id ∈ nodes.nodesItems items ↔ ∃ v ∈ items, id ∈ nodes v := by
  induction items with
  | nil => simp [nodes.nodesItems]
  | cons item rest ih => simp [nodes.nodesItems, ih]

theorem mem_nodesEntries {id : Nat} {entries : List (String × Value)} :
    id ∈ nodes.nodesEntries entries ↔ ∃ entry ∈ entries, id ∈ nodes entry.2 := by
  induction entries with
  | nil => simp [nodes.nodesEntries]
  | cons entry rest ih => simp [nodes.nodesEntries, ih]

theorem mem_nodes_builtin {id : Nat} {name : String} {methods : List String} {members : List Value} :
    id ∈ nodes (.builtin name methods members) ↔ ∃ v ∈ members, id ∈ nodes v := by
  rw [nodes, mem_nodesItems]

theorem mem_nodes_array {id node : Nat} {items : List Value} :
    id ∈ nodes (.array node items) ↔ id = node ∨ ∃ v ∈ items, id ∈ nodes v := by
  rw [nodes, List.mem_cons, mem_nodesItems]

theorem mem_nodes_object {id node : Nat} {proto : Value} {entries : List (String × Value)} :
    id ∈ nodes (.object node proto entries) ↔ id = node ∨ id ∈ nodes proto ∨ ∃ entry ∈ entries, id ∈ nodes entry.2 := by
  rw [nodes, List.mem_cons, List.mem_append, mem_nodesEntries]

theorem own_mem {T : Type} {entries : List (String × T)} {key : String} {value : T} (found : own entries key = some value) :
    ∃ entry ∈ entries, entry.2 = value := by
  unfold own at found
  rw [Option.map_eq_some_iff] at found
  obtain ⟨entry, there, same⟩ := found
  exact ⟨entry, List.mem_of_find?_eq_some there, same⟩

theorem mem_nodes_own {id node : Nat} {proto value : Value} {entries : List (String × Value)} {key : String}
    (found : own entries key = some value) (member : id ∈ nodes value) : id ∈ nodes (.object node proto entries) := by
  obtain ⟨entry, there, rfl⟩ := own_mem found
  exact mem_nodes_object.2 (.inr (.inr ⟨entry, there, member⟩))

theorem mem_nodes_fromObjectPrototype {id : Nat} {receiver value : Value} {key : String}
    (found : fromObjectPrototype receiver key = some value) (member : id ∈ nodes value) : id ∈ nodes receiver := by
  unfold fromObjectPrototype at found
  split at found
  · cases found
    exact member
  · split at found
    · cases found
      simp [nodes] at member
    · cases found

theorem mem_nodes_inherited {id : Nat} {receiver value : Value} {key : String} (proto : Value)
    (found : inherited receiver key proto = some value) (member : id ∈ nodes value) :
    id ∈ nodes receiver ∨ id ∈ nodes proto := by
  induction proto using Value.induct with
  | array node items _ =>
    have fallback : fromObjectPrototype receiver key = some value → id ∈ nodes receiver ∨ id ∈ nodes (.array node items) := by
      intro found
      exact .inl (mem_nodes_fromObjectPrototype found member)
    unfold inherited at found
    split at found
    · split at found
      · exact .inr (mem_nodes_array.2 (.inr ⟨value, List.mem_of_getElem? found, member⟩))
      · exact fallback found
    · split at found
      · cases found
        simp [nodes] at member
      · split at found
        · cases found
          simp [nodes] at member
        · exact fallback found
  | object node proto entries above _ =>
    unfold inherited at found
    split at found
    · rename_i there
      cases found
      exact .inr (mem_nodes_own there member)
    · rcases above found with receiver | above
      · exact .inl receiver
      · exact .inr (mem_nodes_object.2 (.inr (.inl above)))
  | builtin name methods members _ =>
    unfold inherited at found
    split at found
    · cases found
      simp [nodes] at member
    · exact .inl (mem_nodes_fromObjectPrototype found member)
  | objectPrototype => exact .inl (mem_nodes_fromObjectPrototype found member)
  | undefined | null | boolean | number | string | function => cases found

theorem mem_nodes_getProperty {id : Nat} {value : Value} {key : String} (member : id ∈ nodes (getProperty value key)) : id ∈ nodes value := by
  unfold getProperty at member
  cases found : lookup value key with
  | none =>
    rw [found] at member
    simp [nodes] at member
  | some child =>
    rw [found] at member
    cases value with
    | object node proto entries =>
      simp only [lookup] at found
      split at found
      · rename_i there
        cases found
        exact mem_nodes_own there member
      · rcases mem_nodes_inherited proto found member with above | above
        · exact mem_nodes_object.2 (.inr (.inl above))
        · exact mem_nodes_object.2 (.inr (.inl above))
    | builtin name methods members =>
      simp only [lookup] at found
      split at found
      · cases found
        simp [nodes] at member
      · have none' := mem_nodes_fromObjectPrototype found member
        simp [nodes] at none'
    | objectPrototype =>
      have none' := mem_nodes_fromObjectPrototype found member
      simp [nodes] at none'
    | undefined | null | boolean | number | string | function | array => cases found

theorem mem_insertOwn {T : Type} {key : String} {assigned : T} {entries : List (String × T)} {entry : String × T}
    (member : entry ∈ insertOwn key assigned entries) : entry.2 = assigned ∨ entry ∈ entries := by
  induction entries with
  | nil =>
    rw [insertOwn, List.mem_singleton] at member
    exact .inl (by rw [member])
  | cons first rest ih =>
    unfold insertOwn at member
    split at member
    · rcases List.mem_cons.mp member with rfl | member
      · exact .inl rfl
      · exact .inr member
    · rcases List.mem_cons.mp member with rfl | member
      · exact .inr List.mem_cons_self
      · rcases ih member with same | there
        · exact .inl same
        · exact .inr (List.mem_cons_of_mem _ there)

theorem mem_defineOwn {T : Type} {key : String} {assigned : T} {entries : List (String × T)} {entry : String × T}
    (member : entry ∈ defineOwn key assigned entries) : entry.2 = assigned ∨ entry ∈ entries := by
  unfold defineOwn at member
  split at member
  · rw [replaceOwn, List.mem_map] at member
    obtain ⟨before, there, rfl⟩ := member
    split
    · exact .inl rfl
    · exact .inr there
  · exact mem_insertOwn member

theorem mem_nodes_prototypeFor {id : Nat} {proto assigned : Value} (member : id ∈ nodes (prototypeFor proto assigned)) :
    id ∈ nodes proto ∨ id ∈ nodes assigned := by
  unfold prototypeFor at member
  split at member <;> first | exact .inr member | exact .inl member

theorem mem_nodes_setProperty {id : Nat} {value assigned : Value} {key : String} (member : id ∈ nodes (setProperty value key assigned)) :
    id ∈ nodes value ∨ id ∈ nodes assigned := by
  cases value with
  | object node proto entries =>
    rw [setProperty] at member
    by_cases meets : ((own entries key).isNone && meetsSetter key proto) = true
    · rw [if_pos meets] at member
      rcases mem_nodes_object.1 member with here | above | below
      · exact .inl (mem_nodes_object.2 (.inl here))
      · rcases mem_nodes_prototypeFor above with above | given
        · exact .inl (mem_nodes_object.2 (.inr (.inl above)))
        · exact .inr given
      · exact .inl (mem_nodes_object.2 (.inr (.inr below)))
    · rw [if_neg meets] at member
      rcases mem_nodes_object.1 member with here | above | ⟨entry, there, below⟩
      · exact .inl (mem_nodes_object.2 (.inl here))
      · exact .inl (mem_nodes_object.2 (.inr (.inl above)))
      · rcases mem_defineOwn there with same | there
        · exact .inr (same ▸ below)
        · exact .inl (mem_nodes_object.2 (.inr (.inr ⟨entry, there, below⟩)))
  | undefined | null | boolean | number | string | function | objectPrototype | builtin | array => exact .inl member

theorem mutateItems_eq (target : Nat) (key : String) (assigned : Value) (items : List Value) :
    mutate.mutateItems target key assigned items = items.map (mutate target key assigned) := by
  induction items with
  | nil => rfl
  | cons item rest ih => rw [mutate.mutateItems, ih, List.map_cons]

theorem mutateEntries_eq (target : Nat) (key : String) (assigned : Value) (entries : List (String × Value)) :
    mutate.mutateEntries target key assigned entries =
      entries.map fun entry => (entry.1, mutate target key assigned entry.2) := by
  induction entries with
  | nil => rfl
  | cons entry rest ih => rw [mutate.mutateEntries, ih, List.map_cons]

/-- A tree that does not hold the node does not show the change. -/
theorem mutate_of_not_mem {target : Nat} {key : String} {assigned : Value} {value : Value} (outside : target ∉ nodes value) :
    mutate target key assigned value = value := by
  induction value using Value.induct with
  | builtin name methods members below =>
    rw [mutate, mutateItems_eq]
    have same : ∀ v ∈ members, mutate target key assigned v = id v := by
      intro v there
      exact below v there fun member => outside (mem_nodes_builtin.2 ⟨v, there, member⟩)
    rw [List.map_congr_left same, List.map_id]
  | array node items below =>
    rw [mutate, mutateItems_eq]
    have same : ∀ v ∈ items, mutate target key assigned v = id v := by
      intro v there
      exact below v there fun member => outside (mem_nodes_array.2 (.inr ⟨v, there, member⟩))
    rw [List.map_congr_left same, List.map_id]
  | object node proto entries above below =>
    have apart : node ≠ target := fun same => outside (mem_nodes_object.2 (.inl same.symm))
    have same : ∀ entry ∈ entries, (entry.1, mutate target key assigned entry.2) = id entry := by
      intro entry there
      rw [below entry there fun member => outside (mem_nodes_object.2 (.inr (.inr ⟨entry, there, member⟩)))]
      rfl
    rw [mutate, mutateEntries_eq, above fun member => outside (mem_nodes_object.2 (.inr (.inl member))),
      List.map_congr_left same, List.map_id]
    exact if_neg apart
  | undefined | null | boolean | number | string | function | objectPrototype => rfl

/-- A change puts no nodes into a tree but those of the value that is assigned. -/
theorem mem_nodes_mutate {id target : Nat} {key : String} {assigned : Value} {value : Value}
    (member : id ∈ nodes (mutate target key assigned value)) : id ∈ nodes value ∨ id ∈ nodes assigned := by
  induction value using Value.induct with
  | builtin name methods members below =>
    rw [mutate, mutateItems_eq, mem_nodes_builtin] at member
    obtain ⟨v, there, inside⟩ := member
    obtain ⟨before, held, rfl⟩ := List.mem_map.mp there
    rcases below before held inside with inside | given
    · exact .inl (mem_nodes_builtin.2 ⟨before, held, inside⟩)
    · exact .inr given
  | array node items below =>
    rw [mutate, mutateItems_eq, mem_nodes_array] at member
    rcases member with here | ⟨v, there, inside⟩
    · exact .inl (mem_nodes_array.2 (.inl here))
    · obtain ⟨before, held, rfl⟩ := List.mem_map.mp there
      rcases below before held inside with inside | given
      · exact .inl (mem_nodes_array.2 (.inr ⟨before, held, inside⟩))
      · exact .inr given
  | object node proto entries above below =>
    have moved : id ∈ nodes (.object node (mutate target key assigned proto)
        (entries.map fun entry => (entry.1, mutate target key assigned entry.2))) →
        id ∈ nodes (.object node proto entries) ∨ id ∈ nodes assigned := by
      intro member
      rcases mem_nodes_object.1 member with here | inside | ⟨entry, there, inside⟩
      · exact .inl (mem_nodes_object.2 (.inl here))
      · rcases above inside with inside | given
        · exact .inl (mem_nodes_object.2 (.inr (.inl inside)))
        · exact .inr given
      · obtain ⟨before, held, rfl⟩ := List.mem_map.mp there
        rcases below before held inside with inside | given
        · exact .inl (mem_nodes_object.2 (.inr (.inr ⟨before, held, inside⟩)))
        · exact .inr given
    rw [mutate, mutateEntries_eq] at member
    split at member
    · rcases mem_nodes_setProperty member with member | given
      · exact moved member
      · exact .inr given
    · exact moved member
  | undefined | null | boolean | number | string | function | objectPrototype => exact .inl member

end Nodes

end ObjectModel
