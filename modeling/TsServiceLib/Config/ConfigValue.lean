import Mathlib.Data.List.Lex
import Mathlib.Data.List.Sort
import TsServiceLib.Library.Number
import TsServiceLib.Library.Unicode

/-!
Values of a configuration document and the checks on them that the parser is
put together from. Every check is given the path of the value, and names it in
its message.
-/
namespace ConfigValues
open Numbers

inductive Value where
  | undefined
  | null
  | boolean (value : Bool)
  | number (value : Number)
  | string (value : String)
  | array (items : List Value)
  | object (entries : List (String × Value))

/-- What is thrown: an `Error` or a `RangeError`, with its message. -/
inductive ConfigError where
  | error (message : String)
  | range (message : String)
  deriving DecidableEq

abbrev Checked := Except ConfigError

/-- The entries of a mapping, whose keys differ from one another. -/
abbrev RecordValue := List (String × Value)

/-- The operator `in`. -/
def hasKey (source : RecordValue) (key : String) : Bool := source.any fun entry => entry.1 == key

/-- The value under a key, `undefined` where there is none. -/
def field (source : RecordValue) (key : String) : Value :=
  match source.find? fun entry => entry.1 == key with
  | some entry => entry.2
  | none => .undefined

def Value.isUndefined : Value → Bool
  | .undefined => true
  | _ => false

def fails {T : Type} (message : String) : Checked T := .error (.error message)

def record (value : Value) (path : String) : Checked RecordValue :=
  match value with
  | .object entries => .ok entries
  | _ => fails (path ++ " must be a mapping")

def stringValue (value : Value) (path : String) : Checked String :=
  match value with
  | .string text => .ok text
  | _ => fails (path ++ " must be a string")

/-- The optional checks let `undefined` pass. -/
def optionally {T : Type} (check : Value → String → Checked T) (value : Value) (path : String) : Checked (Option T) :=
  if value.isUndefined then .ok none else (check value path).map some

def optionalString : Value → String → Checked (Option String) := optionally stringValue

def numberValue (value : Value) (path : String) : Checked ℚ :=
  match value with
  | .number (.finite q) => .ok q
  | _ => fails (path ++ " must be a finite number")

def integer (value : Value) (path : String) : Checked Int := do
  let result ← numberValue value path
  if (Number.finite result).isSafeInteger then .ok result.num else fails (path ++ " must be a safe integer")

def optionalInteger : Value → String → Checked (Option Int) := optionally integer

def booleanValue (value : Value) (path : String) : Checked Bool :=
  match value with
  | .boolean flag => .ok flag
  | _ => fails (path ++ " must be a boolean")

def optionalBoolean : Value → String → Checked (Option Bool) := optionally booleanValue

def enumValue (allowed : List String) (value : Value) (path : String) : Checked String := do
  let result ← stringValue value path
  if allowed.contains result then .ok result
  else fails (path ++ " must be one of: " ++ ", ".intercalate allowed)

def optionalEnum (allowed : List String) : Value → String → Checked (Option String) := optionally (enumValue allowed)

def requiredEnum (allowed : List String) (value : Value) (path : String) : Checked String := do
  match ← optionalEnum allowed value path with
  | some result => .ok result
  | none => fails (path ++ " is required")

/-- `${path}[${index}]` for the items from `index` on. -/
def integersFrom (path : String) (index : Nat) : List Value → Checked (List Int)
  | [] => .ok []
  | item :: rest => do
    let first ← integer item (path ++ "[" ++ toString index ++ "]")
    let others ← integersFrom path (index + 1) rest
    return first :: others

def integerArray (value : Value) (path : String) : Checked (List Int) :=
  match value with
  | .undefined => .ok []
  | .array items => integersFrom path 0 items
  | _ => fails (path ++ " must be a sequence")

def readField {T : Type} (check : Value → String → Checked T) (source : RecordValue) (path key : String) : Checked T :=
  check (field source key) (path ++ "." ++ key)

structure Identity where
  id : Int
  name : String
  deriving DecidableEq

def identity (source : RecordValue) (path : String) : Checked Identity := do
  let id ← readField integer source path "id"
  let name ← readField stringValue source path "name"
  return { id, name }

/-- Keys are sorted by their code units. -/
def keyBefore (a b : String) : Prop :=
  (Unicode.utf16 a.toList).map UInt16.toNat ≤ (Unicode.utf16 b.toList).map UInt16.toNat

instance : DecidableRel keyBefore := fun _ _ => inferInstanceAs (Decidable ((_ : List Nat) ≤ _))

def sortedKeys (values : RecordValue) : List String := (values.map Prod.fst).insertionSort keyBefore

def namedSection {T : Type} (root : RecordValue) (sectionName : String) (parse : RecordValue → String → Checked T) :
    Checked (List T) := do
  let values ← match field root sectionName with
    | .undefined | .null => .ok []
    | value => record value sectionName
  (sortedKeys values).mapM fun name => do
    let path := sectionName ++ "." ++ name
    let source ← record (field values name) path
    parse source path

theorem ok_of_toOption {T : Type} {checked : Checked T} {value : T} (found : checked.toOption = some value) :
    checked = .ok value := by
  cases checked with
  | error e => cases found
  | ok v =>
    cases found
    rfl

end ConfigValues
