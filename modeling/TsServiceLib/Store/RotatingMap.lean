import TsServiceLib.Library.OrderedMap
import TsServiceLib.Store.MapKeys
import Mathlib.Algebra.BigOperators.Fin

/-!
The sharded map of two generations, and the plain map that it stands for. A
program is what its users do with either of them, one operation after another
in the light of the results so far; a factory is such a program of its own.
-/
namespace RotatingMaps
open OrderedMaps Function Unicode
variable {V E : Type}

structure Entry (V : Type) where
  value : V
  deriving DecidableEq

structure Shard (V : Type) where
  current : OrderedMap Key (Entry V)
  previous : OrderedMap Key (Entry V)
  highWaterMark : Nat

def shrinkFactor : Nat := 4

abbrev shardCount : Nat := 64

structure RotatingMap (V : Type) where
  minCapacity : Nat
  shards : Fin shardCount → Shard V
  objectIds : Key → Option Nat
  nextObjectId : Nat

inductive Failure (E : Type) where
  | duplicateKey (key : Key)
  | thrown (error : E)
  deriving DecidableEq

namespace Shard

def empty : Shard V := ⟨.empty, .empty, 0⟩

def total (shard : Shard V) : Nat := shard.current.size + shard.previous.size

/-- The entry under a key that the map has stored. -/
def find (shard : Shard V) (key : Key) : Option (Entry V) :=
  match shard.current.get key with
  | some entry => some entry
  | none => shard.previous.get key

/-- `rotateShard` of a shard. -/
def rotate (minCapacity : Nat) (shard : Shard V) : Shard V :=
  let shouldRotate := decide (shard.highWaterMark = 0) || decide (shard.total * shrinkFactor < shard.highWaterMark)
  let highWaterMark := max shard.highWaterMark shard.total
  if highWaterMark < minCapacity ∨ shouldRotate = false then { shard with highWaterMark := highWaterMark }
  else
    { current := .empty
      previous := shard.current.addAbsent shard.previous.entries
      highWaterMark := shard.total }

end Shard

namespace RotatingMap

def empty (minCapacity : Nat) : RotatingMap V where
  minCapacity := minCapacity
  shards := fun _ => .empty
  objectIds := fun _ => none
  nextObjectId := 1

/-- The hash of the key, with the map in which an object has got a number. -/
def hash (decimal : ℚ → String) (map : RotatingMap V) (key : Key) : RotatingMap V × BitVec 32 :=
  match key.text decimal with
  | some text => (map, hashString (utf16 (key.typeOf ++ ":").toList ++ text))
  | none =>
    match map.objectIds key with
    | some id => (map, mix id)
    | none =>
      ({ map with objectIds := update map.objectIds key (some map.nextObjectId), nextObjectId := map.nextObjectId + 1 },
        mix map.nextObjectId)

theorem and_lt (hash : BitVec 32) : (hash &&& BitVec.ofNat 32 (shardCount - 1)).toNat < shardCount := by
  rw [BitVec.toNat_and]
  exact Nat.lt_succ_of_le Nat.and_le_right

def place (hash : BitVec 32) : Fin shardCount := ⟨(hash &&& BitVec.ofNat 32 (shardCount - 1)).toNat, and_lt hash⟩

def shard (decimal : ℚ → String) (map : RotatingMap V) (key : Key) : RotatingMap V × Fin shardCount :=
  let (map, hash) := map.hash decimal key
  (map, place hash)

def put (map : RotatingMap V) (index : Fin shardCount) (shard : Shard V) : RotatingMap V :=
  { map with shards := update map.shards index shard }

def size (map : RotatingMap V) : Nat := ∑ index, (map.shards index).total

/-- `shard.current.set(key, { value })`. -/
def store (map : RotatingMap V) (index : Fin shardCount) (key : Key) (value : V) : RotatingMap V :=
  map.put index { map.shards index with current := (map.shards index).current.set key.canonical ⟨value⟩ }

def set (decimal : ℚ → String) (map : RotatingMap V) (key : Key) (value : V) : RotatingMap V × Except (Failure E) Unit :=
  let (map, index) := map.shard decimal key
  if (map.shards index).current.has key.canonical || (map.shards index).previous.has key.canonical then
    (map, .error (.duplicateKey key))
  else (map.store index key value, .ok ())

/-- `get`: the value, and whether there is one. -/
def get (decimal : ℚ → String) (map : RotatingMap V) (key : Key) : RotatingMap V × (Option V × Bool) :=
  let (map, index) := map.shard decimal key
  match (map.shards index).find key.canonical with
  | some entry => (map, some entry.value, true)
  | none => (map, none, false)

def pop (decimal : ℚ → String) (map : RotatingMap V) (key : Key) : RotatingMap V × (Option V × Bool) :=
  let (map, index) := map.shard decimal key
  let shard := map.shards index
  match shard.current.get key.canonical with
  | some entry => (map.put index { shard with current := shard.current.delete key.canonical }, some entry.value, true)
  | none =>
    match shard.previous.get key.canonical with
    | some entry => (map.put index { shard with previous := shard.previous.delete key.canonical }, some entry.value, true)
    | none => (map, none, false)

def rotateShard (map : RotatingMap V) (index : Fin shardCount) : RotatingMap V :=
  map.put index ((map.shards index).rotate map.minCapacity)

def rotate (map : RotatingMap V) : RotatingMap V :=
  { map with shards := fun index => (map.shards index).rotate map.minCapacity }

end RotatingMap

/-- One `Map`, under the keys that it stores. -/
abbrev PlainMap (V : Type) := OrderedMap Key V

namespace PlainMap

def set (map : PlainMap V) (key : Key) (value : V) : PlainMap V × Except (Failure E) Unit :=
  if map.has key.canonical then (map, .error (.duplicateKey key)) else (OrderedMap.set map key.canonical value, .ok ())

def lookup (map : PlainMap V) (key : Key) : Option V × Bool :=
  match map.get key.canonical with
  | some value => (some value, true)
  | none => (none, false)

def pop (map : PlainMap V) (key : Key) : PlainMap V × (Option V × Bool) := (map.delete key.canonical, lookup map key)

end PlainMap

/-- What a user does: each operation goes on with its result, and a factory gives
    a value or throws. -/
inductive Program (V E : Type) where
  | done (outcome : Except (Failure E) V)
  | set (key : Key) (value : V) (next : Except (Failure E) Unit → Program V E)
  | getOrCreate (key : Key) (factory : Program V E) (next : Except (Failure E) (V × Bool) → Program V E)
  | get (key : Key) (next : Option V × Bool → Program V E)
  | pop (key : Key) (next : Option V × Bool → Program V E)
  | size (next : Nat → Program V E)
  | rotateShard (index : Fin shardCount) (next : Program V E)
  | rotate (next : Program V E)

inductive Result (V E : Type) where
  | set (result : Except (Failure E) Unit)
  | created (result : Except (Failure E) (V × Bool))
  | lookup (result : Option V × Bool)
  | size (result : Nat)
  deriving DecidableEq

/-- What a run leaves: the map, the results in order, how the program ended, the
    keys it operated on and whether a factory operated on its own key. -/
structure Run (M V E : Type) where
  map : M
  results : List (Result V E)
  outcome : Except (Failure E) V
  touched : List Key
  reentered : Bool

/-- The run after results and operations that came before. -/
def Run.after {M : Type} (results : List (Result V E)) (touched : List Key) (reentered : Bool) (run : Run M V E) :
    Run M V E :=
  { run with results := results ++ run.results, touched := touched ++ run.touched, reentered := reentered || run.reentered }

def touches (keys : List Key) (key : Key) : Bool := keys.any key.sameValueZero

namespace Program

def run (decimal : ℚ → String) : Program V E → RotatingMap V → Run (RotatingMap V) V E
  | .done outcome, map => ⟨map, [], outcome, [], false⟩
  | .set key value next, map =>
    let (map, result) := map.set decimal key value
    ((next result).run decimal map).after [.set result] [key] false
  | .getOrCreate key factory next, map =>
    let (map, index) := map.shard decimal key
    match (map.shards index).find key.canonical with
    | some entry => ((next (.ok (entry.value, true))).run decimal map).after [.created (.ok (entry.value, true))] [key] false
    | none =>
      let made := factory.run decimal map
      match made.outcome with
      | .ok value =>
        ((next (.ok (value, false))).run decimal (made.map.store index key value)).after
          (made.results ++ [.created (.ok (value, false))]) (key :: made.touched) (made.reentered || touches made.touched key)
      | .error failure =>
        ((next (.error failure)).run decimal made.map).after
          (made.results ++ [.created (.error failure)]) (key :: made.touched) (made.reentered || touches made.touched key)
  | .get key next, map =>
    let (map, result) := map.get decimal key
    ((next result).run decimal map).after [.lookup result] [key] false
  | .pop key next, map =>
    let (map, result) := map.pop decimal key
    ((next result).run decimal map).after [.lookup result] [key] false
  | .size next, map => ((next map.size).run decimal map).after [.size map.size] [] false
  | .rotateShard index next, map => next.run decimal (map.rotateShard index)
  | .rotate next, map => next.run decimal map.rotate

/-- The same operations on one map, which has no shards to rotate. -/
def runPlain : Program V E → PlainMap V → Run (PlainMap V) V E
  | .done outcome, map => ⟨map, [], outcome, [], false⟩
  | .set key value next, map =>
    let (map, result) := PlainMap.set map key value
    ((next result).runPlain map).after [.set result] [key] false
  | .getOrCreate key factory next, map =>
    match map.get key.canonical with
    | some value => ((next (.ok (value, true))).runPlain map).after [.created (.ok (value, true))] [key] false
    | none =>
      let made := factory.runPlain map
      match made.outcome with
      | .ok value =>
        ((next (.ok (value, false))).runPlain (OrderedMap.set made.map key.canonical value)).after
          (made.results ++ [.created (.ok (value, false))]) (key :: made.touched) (made.reentered || touches made.touched key)
      | .error failure =>
        ((next (.error failure)).runPlain made.map).after
          (made.results ++ [.created (.error failure)]) (key :: made.touched) (made.reentered || touches made.touched key)
  | .get key next, map =>
    ((next (PlainMap.lookup map key)).runPlain map).after [.lookup (PlainMap.lookup map key)] [key] false
  | .pop key next, map =>
    let (map, result) := PlainMap.pop map key
    ((next result).runPlain map).after [.lookup result] [key] false
  | .size next, map => ((next map.size).runPlain map).after [.size map.size] [] false
  | .rotateShard _ next, map => next.runPlain map
  | .rotate next, map => next.runPlain map

end Program

end RotatingMaps
