import TsServiceLib.Library.OrderedMap
import TsServiceLib.Library.Transitions
import TsServiceLib.Serde.StreamSerdes

/-!
The registry of serdes. A type is an object with a name and a check of values
that TypeScript has forgotten; the registry keeps the serde of a type under its
name, and the type object keeps it for the registry. Every serde that is handed
out checks the values it writes and the values it has read.
-/
namespace SerdeRegistries
open OrderedMaps Serdes Framing

/-- What is thrown: an `Error` of the registry, a failure of a serde or of a
    check, or whatever a check of the user throws. -/
inductive Thrown where
  | error (message : String)
  | failure (failure : Failure)
  | foreign (value : Nat)
  deriving DecidableEq

def Thrown.isTypeError : Thrown → Bool
  | .failure (.typeError _) => true
  | _ => false

/-- `U` is the type `unknown`. -/
structure SerdeType (U : Type) where
  name : String
  predicate : U → Except Thrown Bool

section Types
variable {U : Type}

def SerdeType.assert (type : SerdeType U) (value : U) : Except Thrown Unit := do
  if ← type.predicate value then pure () else throw (.failure (.typeError ("value is not " ++ type.name)))

/-- What a serde throws, as something thrown. -/
def thrown {T : Type} : Except Failure T → Except Thrown T
  | .ok value => .ok value
  | .error failure => .error (.failure failure)

structure RuntimeValidatedStreamSerde (U : Type) where
  type : SerdeType U
  serde : StreamSerde U

namespace RuntimeValidatedStreamSerde
variable (s : RuntimeValidatedStreamSerde U)

def serialize (value : U) (before : Bytes) : Except Thrown Bytes := do
  s.type.assert value
  thrown (s.serde.serialize value before)

def validate (value : U) : Except Thrown U := do
  s.type.assert value
  pure value

def deserialize (data : Bytes) : Except Thrown U := do
  let value ← thrown (s.serde.deserialize data)
  s.validate value

def serializeKey (value : U) : Except Thrown (Option Bytes) := do
  s.type.assert value
  thrown (s.serde.serializeKey value)

def serializeValue (value : U) : Except Thrown Bytes := do
  s.type.assert value
  thrown (s.serde.serializeValue value)

def deserializeKeyValue (key : Option Bytes) (value : Bytes) : Except Thrown U := do
  let read ← thrown (s.serde.deserializeKeyValue key value)
  s.validate read

end RuntimeValidatedStreamSerde

end Types

/-- `registered` is what the type objects keep for this registry. -/
structure SerdeRegistry (U : Type) where
  byName : OrderedMap String (RuntimeValidatedStreamSerde U) := OrderedMap.empty
  assertByName : OrderedMap String (U → Except Thrown Unit) := OrderedMap.empty
  streamValueTypes : OrderedMap Int String := OrderedMap.empty
  streamErrorTypes : OrderedMap Int String := OrderedMap.empty
  registered : Nat → Option (RuntimeValidatedStreamSerde U) := fun _ => none

section Registry
variable {U : Type} (types : Nat → SerdeType U) (r : SerdeRegistry U)

def notRegistered (name : String) : Thrown := .error ("serde type " ++ name ++ " is not registered")

def register (type : Nat) (serde : StreamSerde U) : Except Thrown (SerdeRegistry U) :=
  let name := (types type).name
  if r.byName.has name then throw (.error ("serde type " ++ name ++ " is already registered"))
  else
    let validated := ⟨types type, serde⟩
    pure { r with
      byName := r.byName.set name validated
      assertByName := r.assertByName.set name (types type).assert
      registered := Function.update r.registered type (some validated) }

def get (type : Nat) : Option (RuntimeValidatedStreamSerde U) := r.registered type

def require (type : Nat) : Except Thrown (RuntimeValidatedStreamSerde U) :=
  match get r type with
  | some serde => pure serde
  | none => throw (notRegistered (types type).name)

def requireByName (name : String) : Except Thrown (RuntimeValidatedStreamSerde U) :=
  match r.byName.get name with
  | some serde => pure serde
  | none => throw (notRegistered name)

def assertByName (name : String) (value : U) : Except Thrown Unit :=
  match r.assertByName.get name with
  | some assert => assert value
  | none => throw (notRegistered name)

def matchesByName (name : String) (value : U) : Except Thrown Bool :=
  match r.assertByName.get name with
  | some assert =>
    match assert value with
    | .ok _ => pure true
    | .error error => if error.isTypeError then pure false else throw error
  | none => throw (notRegistered name)

def registerStreamErrorType (streamId : Int) (type : Nat) : Except Thrown (SerdeRegistry U) :=
  if r.streamErrorTypes.has streamId then
    throw (.error ("error serde for stream " ++ toString streamId ++ " is already registered"))
  else pure { r with streamErrorTypes := r.streamErrorTypes.set streamId (types type).name }

def registerStreamValueType (streamId : Int) (type : Nat) : Except Thrown (SerdeRegistry U) :=
  if r.streamValueTypes.has streamId then
    throw (.error ("value serde for stream " ++ toString streamId ++ " is already registered"))
  else pure { r with streamValueTypes := r.streamValueTypes.set streamId (types type).name }

def requireStreamValue (streamId : Int) : Except Thrown (RuntimeValidatedStreamSerde U) :=
  match r.streamValueTypes.get streamId with
  | some name => requireByName r name
  | none => throw (.error ("value serde for stream " ++ toString streamId ++ " is not registered"))

def requireStreamError (streamId : Int) : Except Thrown (RuntimeValidatedStreamSerde U) :=
  match r.streamErrorTypes.get streamId with
  | some name => requireByName r name
  | none => throw (.error ("error serde for stream " ++ toString streamId ++ " is not registered"))

end Registry

inductive Action (U : Type) where
  | register (type : Nat) (serde : StreamSerde U)
  | registerStreamErrorType (streamId : Int) (type : Nat)
  | registerStreamValueType (streamId : Int) (type : Nat)

section Runs
variable {U : Type} (types : Nat → SerdeType U)

/-- A call that throws leaves the registry as it is. -/
def step (r : SerdeRegistry U) (a : Action U) : Option (SerdeRegistry U) :=
  let result := match a with
    | .register type serde => register types r type serde
    | .registerStreamErrorType streamId type => registerStreamErrorType types r streamId type
    | .registerStreamValueType streamId type => registerStreamValueType types r streamId type
  match result with
  | .ok changed => some changed
  | .error _ => some r

/-- What one type object keeps, the maps keep under its name. -/
structure Coherent (r : SerdeRegistry U) : Prop where
  object : ∀ {type serde}, r.registered type = some serde → r.byName.get (types type).name = some serde
  name : ∀ {name serde}, r.byName.get name = some serde → serde.type.name = name
  check : ∀ name, r.assertByName.get name = (r.byName.get name).map fun serde => serde.type.assert

variable {types}

theorem register_ok {r r' : SerdeRegistry U} {type : Nat} {serde : StreamSerde U}
    (done : register types r type serde = .ok r') :
    r.byName.get (types type).name = none ∧
      r' = { r with
        byName := r.byName.set (types type).name ⟨types type, serde⟩
        assertByName := r.assertByName.set (types type).name (types type).assert
        registered := Function.update r.registered type (some ⟨types type, serde⟩) } := by
  unfold register at done
  simp only at done
  split at done
  · cases done
  · rename_i absent
    refine ⟨?_, (Except.ok.inj done).symm⟩
    simpa [OrderedMap.has] using absent

theorem coherent_register {r r' : SerdeRegistry U} {type : Nat} {serde : StreamSerde U} (h : Coherent types r)
    (done : register types r type serde = .ok r') : Coherent types r' := by
  obtain ⟨absent, rfl⟩ := register_ok done
  refine ⟨?_, ?_, ?_⟩
  · intro other found kept
    simp only at kept ⊢
    by_cases same : other = type
    · subst other
      rw [Function.update_self] at kept
      rw [OrderedMap.get_set_self, kept]
    · rw [Function.update_of_ne same] at kept
      have before := h.object kept
      rw [OrderedMap.get_set_of_ne]
      · exact before
      · intro clash
        rw [clash, absent] at before
        cases before
  · intro name found got
    simp only [OrderedMap.get_set] at got
    split at got
    · rename_i named
      cases got
      exact named.symm
    · exact h.name got
  · intro name
    simp only [OrderedMap.get_set]
    split
    · rfl
    · exact h.check name

theorem step_cases {r r' : SerdeRegistry U} {a : Action U} (next : step types r a = some r') :
    (∃ type serde, register types r type serde = .ok r') ∨
      (r'.byName = r.byName ∧ r'.assertByName = r.assertByName ∧ r'.registered = r.registered) := by
  cases a with
  | register type serde =>
    simp only [step] at next
    split at next
    · rename_i done
      cases next
      exact .inl ⟨type, serde, done⟩
    · cases next
      exact .inr ⟨rfl, rfl, rfl⟩
  | registerStreamErrorType streamId type =>
    simp only [step, registerStreamErrorType] at next
    split at next
    · rename_i done
      split at done <;> cases done
      cases next
      exact .inr ⟨rfl, rfl, rfl⟩
    · cases next
      exact .inr ⟨rfl, rfl, rfl⟩
  | registerStreamValueType streamId type =>
    simp only [step, registerStreamValueType] at next
    split at next
    · rename_i done
      split at done <;> cases done
      cases next
      exact .inr ⟨rfl, rfl, rfl⟩
    · cases next
      exact .inr ⟨rfl, rfl, rfl⟩

theorem coherent_step {r r' : SerdeRegistry U} {a : Action U} (h : Coherent types r) (next : step types r a = some r') :
    Coherent types r' := by
  rcases step_cases next with ⟨type, serde, done⟩ | ⟨byName, checks, registered⟩
  · exact coherent_register h done
  · refine ⟨?_, ?_, ?_⟩
    · intro type serde kept
      rw [registered] at kept
      rw [byName]
      exact h.object kept
    · intro name serde got
      rw [byName] at got
      exact h.name got
    · intro name
      rw [checks, byName]
      exact h.check name

theorem byName_step {r r' : SerdeRegistry U} {a : Action U} (next : step types r a = some r') {name : String}
    {serde : RuntimeValidatedStreamSerde U} (got : r.byName.get name = some serde) : r'.byName.get name = some serde := by
  rcases step_cases next with ⟨type, added, done⟩ | ⟨byName, -, -⟩
  · obtain ⟨absent, rfl⟩ := register_ok done
    rw [OrderedMap.get_set_of_ne]
    · exact got
    · intro clash
      rw [clash, absent] at got
      cases got
  · rw [byName]
    exact got

/-- A type object that has its serde keeps it: its name is taken. -/
theorem registered_step {r r' : SerdeRegistry U} {a : Action U} (h : Coherent types r) (next : step types r a = some r')
    {type : Nat} {serde : RuntimeValidatedStreamSerde U} (kept : r.registered type = some serde) :
    r'.registered type = some serde := by
  rcases step_cases next with ⟨other, added, done⟩ | ⟨-, -, registered⟩
  · obtain ⟨absent, rfl⟩ := register_ok done
    simp only
    rw [Function.update_of_ne]
    · exact kept
    · intro clash
      have taken := h.object kept
      rw [clash, absent] at taken
      cases taken
  · rw [registered]
    exact kept

def Reached (types : Nat → SerdeType U) (r : SerdeRegistry U) : Prop :=
  Transitions.Steps (step types) Transitions.Any {} r

theorem coherent_reached {r : SerdeRegistry U} (reached : Reached types r) : Coherent types r := by
  refine Transitions.steps_invariant (Coherent types) (fun _ _ _ h _ next => coherent_step h next) reached ?_
  exact ⟨nofun, nofun, fun _ => rfl⟩

theorem requireByName_ok {r : SerdeRegistry U} {name : String} {serde : RuntimeValidatedStreamSerde U} :
    requireByName r name = .ok serde ↔ r.byName.get name = some serde := by
  unfold requireByName
  cases r.byName.get name with
  | none => exact ⟨nofun, nofun⟩
  | some found => exact ⟨fun same => congrArg some (Except.ok.inj same), fun same => congrArg Except.ok (Option.some.inj same)⟩

theorem thrown_ok {T : Type} {x : Except Failure T} {value : T} : thrown x = .ok value ↔ x = .ok value := by
  cases x with
  | ok found => exact ⟨fun same => congrArg Except.ok (Except.ok.inj same), fun same => congrArg Except.ok (Except.ok.inj same)⟩
  | error failure => exact ⟨nofun, nofun⟩

theorem validate_ok {s : RuntimeValidatedStreamSerde U} {value read : U} (done : s.validate value = .ok read) :
    read = value ∧ s.type.assert value = .ok () := by
  obtain ⟨⟨⟩, checked, same⟩ := bind_ok.mp done
  exact ⟨(Except.ok.inj same).symm, checked⟩

theorem matchesByName_of_assert {r : SerdeRegistry U} {name : String} {value : U}
    (checked : assertByName r name value = .ok ()) : matchesByName r name value = .ok true := by
  unfold assertByName at checked
  unfold matchesByName
  split at checked
  · rename_i assert found
    rw [checked]
    rfl
  · cases checked

theorem assert_of_matchesByName {r : SerdeRegistry U} {name : String} {value : U}
    (matched : matchesByName r name value = .ok true) : assertByName r name value = .ok () := by
  unfold matchesByName at matched
  unfold assertByName
  split at matched
  · split at matched
    · rename_i checked
      exact checked
    · split at matched
      · cases Except.ok.inj matched
      · cases matched
  · cases matched

/-- A key and a value that are written apart make the value again. -/
def ReadsApart (s : StreamSerde U) : Prop :=
  ∀ value key data, s.serializeKey value = .ok key → s.serializeValue value = .ok data →
    s.deserializeKeyValue key data = .ok value

/-- What a serde writes and gives, whole or as a key and a value, passes a check. -/
structure Guarded (s : RuntimeValidatedStreamSerde U) (passes : U → Prop) : Prop where
  serialize : ∀ {value before out}, s.serialize value before = .ok out → passes value
  serializeKey : ∀ {value key}, s.serializeKey value = .ok key → passes value
  serializeValue : ∀ {value out}, s.serializeValue value = .ok out → passes value
  deserialize : ∀ {data value}, s.deserialize data = .ok value → passes value
  deserializeKeyValue : ∀ {key data value}, s.deserializeKeyValue key data = .ok value → passes value

theorem guarded_assert (s : RuntimeValidatedStreamSerde U) : Guarded s fun value => s.type.assert value = .ok () := by
  refine ⟨?_, ?_, ?_, ?_, ?_⟩
  · intro value before out written
    obtain ⟨⟨⟩, checked, -⟩ := bind_ok.mp written
    exact checked
  · intro value key written
    obtain ⟨⟨⟩, checked, -⟩ := bind_ok.mp written
    exact checked
  · intro value out written
    obtain ⟨⟨⟩, checked, -⟩ := bind_ok.mp written
    exact checked
  · intro data value read
    obtain ⟨decoded, -, validated⟩ := bind_ok.mp read
    obtain ⟨rfl, checked⟩ := validate_ok validated
    exact checked
  · intro key data value read
    obtain ⟨decoded, -, validated⟩ := bind_ok.mp read
    obtain ⟨rfl, checked⟩ := validate_ok validated
    exact checked

/-- The checks stand around the serde, not between what it writes and what it reads. -/
theorem validated_reads_back {s : RuntimeValidatedStreamSerde U} (lawful : Lawful s.serde.toSerde) {value : U} {out : Bytes}
    (written : s.serialize value [] = .ok out) : s.deserialize out = .ok value := by
  obtain ⟨⟨⟩, checked, encoded⟩ := bind_ok.mp written
  have read := (lawful.accepted (thrown_ok.mp encoded)).2.1
  exact bind_ok.mpr ⟨value, thrown_ok.mpr read, bind_ok.mpr ⟨(), checked, rfl⟩⟩

theorem validated_reads_apart {s : RuntimeValidatedStreamSerde U} (apart : ReadsApart s.serde) {value : U}
    {key : Option Bytes} {data : Bytes} (keyWritten : s.serializeKey value = .ok key)
    (valueWritten : s.serializeValue value = .ok data) : s.deserializeKeyValue key data = .ok value := by
  obtain ⟨⟨⟩, checked, keyEncoded⟩ := bind_ok.mp keyWritten
  obtain ⟨⟨⟩, -, valueEncoded⟩ := bind_ok.mp valueWritten
  have read := apart value key data (thrown_ok.mp keyEncoded) (thrown_ok.mp valueEncoded)
  exact bind_ok.mpr ⟨value, thrown_ok.mpr read, bind_ok.mpr ⟨(), checked, rfl⟩⟩

/- Whatever was registered, and in whatever order: what is found by a type object
   is found by its name, what is found by either stays, and a serde that is found
   writes and gives only values that pass the check kept under its name, whole or
   as a key and a value, and still reads back what it has written, if the serde
   inside does. -/
theorem registry_checks {r : SerdeRegistry U} (reached : Reached types r) :
    (∀ type serde, get r type = some serde → requireByName r (types type).name = .ok serde) ∧
    (∀ r', Transitions.Steps (step types) Transitions.Any r r' →
      (∀ type serde, get r type = some serde → get r' type = some serde) ∧
      ∀ name serde, requireByName r name = .ok serde → requireByName r' name = .ok serde) ∧
    ∀ name serde, requireByName r name = .ok serde →
      serde.type.name = name ∧
      Guarded serde (fun value => matchesByName r name value = .ok true) ∧
      (Lawful serde.serde.toSerde → ∀ value out, serde.serialize value [] = .ok out → serde.deserialize out = .ok value) ∧
      (ReadsApart serde.serde → ∀ value key data, serde.serializeKey value = .ok key →
        serde.serializeValue value = .ok data → serde.deserializeKeyValue key data = .ok value) := by
  have coherent := coherent_reached reached
  refine ⟨?_, ?_, ?_⟩
  · intro type serde got
    exact requireByName_ok.mpr (coherent.object got)
  · intro r' run
    constructor
    · intro type serde got
      have kept := Transitions.steps_invariant (fun r => Coherent types r ∧ r.registered type = some serde)
        (fun _ _ _ h _ next => ⟨coherent_step h.1 next, registered_step h.1 next h.2⟩) run ⟨coherent, got⟩
      exact kept.2
    · intro name serde found
      have kept := Transitions.steps_invariant (fun r => r.byName.get name = some serde)
        (fun _ _ _ got _ next => byName_step next got) run (requireByName_ok.mp found)
      exact requireByName_ok.mpr kept
  · intro name serde found
    have got := requireByName_ok.mp found
    have checks : ∀ value, serde.type.assert value = .ok () → matchesByName r name value = .ok true := by
      intro value checked
      apply matchesByName_of_assert
      unfold assertByName
      rw [coherent.check name, got]
      exact checked
    have guarded := guarded_assert serde
    have passes : Guarded serde fun value => matchesByName r name value = .ok true :=
      ⟨fun h => checks _ (guarded.serialize h), fun h => checks _ (guarded.serializeKey h),
        fun h => checks _ (guarded.serializeValue h), fun h => checks _ (guarded.deserialize h),
        fun h => checks _ (guarded.deserializeKeyValue h)⟩
    refine ⟨coherent.name got, passes, ?_, ?_⟩
    · intro lawful value out written
      exact validated_reads_back lawful written
    · intro apart value key data keyWritten valueWritten
      exact validated_reads_apart apart keyWritten valueWritten

end Runs

/-- The type of the booleans, in a world where there is nothing else. -/
def boolType : SerdeType Bool := ⟨"bool", fun _ => .ok true⟩

def pairType : SerdeType (KeyValue Bool Bool) := ⟨"pair", fun _ => .ok true⟩

def pairSerde : StreamSerde (KeyValue Bool Bool) := streamKeyValueSerde boolSerde boolSerde "KeyValue[bool,bool]"

theorem pairSerde_reads_apart : ReadsApart pairSerde := by
  intro pair key data keyWritten valueWritten
  obtain ⟨keyBytes, keyEncoded, same⟩ := bind_ok.mp keyWritten
  cases Except.ok.inj same
  have keyRead := (boolSerde_lawful.accepted keyEncoded).2.1
  have valueRead := (boolSerde_lawful.accepted valueWritten).2.1
  exact bind_ok.mpr ⟨pair.key, keyRead, bind_ok.mpr ⟨pair.value, valueRead, rfl⟩⟩

theorem registry_checks_pair :
    ∃ r : SerdeRegistry (KeyValue Bool Bool), Reached (fun _ => pairType) r ∧
      requireByName r "pair" = .ok ⟨pairType, pairSerde⟩ ∧ matchesByName r "pair" ⟨true, false⟩ = .ok true ∧
      (⟨pairType, pairSerde⟩ : RuntimeValidatedStreamSerde (KeyValue Bool Bool)).deserializeKeyValue (some [1]) [0] =
        .ok ⟨true, false⟩ := by
  obtain ⟨r, next, kept⟩ : ∃ r : SerdeRegistry (KeyValue Bool Bool),
      step (fun _ => pairType) {} (.register 0 pairSerde) = some r ∧ get r 0 = some ⟨pairType, pairSerde⟩ := ⟨_, rfl, rfl⟩
  have reached : Reached (fun _ => pairType) r := Transitions.steps_single trivial next
  have found := (registry_checks reached).1 0 _ kept
  obtain ⟨-, guarded, -, apart⟩ := (registry_checks reached).2.2 _ _ found
  have key : (⟨pairType, pairSerde⟩ : RuntimeValidatedStreamSerde _).serializeKey ⟨true, false⟩ = .ok (some [1]) := rfl
  exact ⟨r, reached, found, guarded.serializeKey key, apart pairSerde_reads_apart _ _ _ key rfl⟩

end SerdeRegistries
