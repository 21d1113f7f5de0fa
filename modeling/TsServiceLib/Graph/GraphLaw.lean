import Mathlib
import TsServiceLib.Graph.StreamGraph
import TsServiceLib.Library.Transitions

/-!
What every construction keeps of a graph, whichever constructors throw on the
way and wherever they stop. Streams stay under their ids, bound outputs stay
bound to the same consumer, and so the edges of the graph only grow: a topology
that has been found valid stays valid.
-/
namespace StreamGraphs
open ConfigValues ConfigParsers RuntimeConfigs OrderedMaps Effects

/-- A listing with more links or branches at its end. -/
def Listing.Grown : Listing → Listing → Prop
  | .untyped, .untyped => True
  | .own, .own => True
  | .links a, .links b => a <+: b
  | .whens a, .whens b => a <+: b
  | _, _ => False

theorem grown_refl (l : Listing) : l.Grown l := by
  cases l <;> simp [Listing.Grown]

theorem grown_trans {a b c : Listing} (first : a.Grown b) (second : b.Grown c) : a.Grown c := by
  cases a <;> cases b <;> simp only [Listing.Grown] at first <;> cases c <;>
    simp only [Listing.Grown] at second ⊢
  all_goals exact first.trans second

structure Output.Kept (a b : Output) : Prop where
  owner : b.owner = a.owner
  name : b.name = a.name
  consumer : ∀ c, a.consumer = some c → b.consumer = some c

structure StreamObject.Kept (a b : StreamObject) : Prop where
  id : b.id = a.id
  output : b.output = a.output
  listing : a.listing.Grown b.listing

theorem object_kept (a : StreamObject) : a.Kept a := ⟨rfl, rfl, grown_refl _⟩

/-- The graph that is left has all that was there. -/
structure Extends (g t : Graph) : Prop where
  output : ∀ (k : Nat) (a : Output), g.outputs[k]? = some a → ∃ b, t.outputs[k]? = some b ∧ a.Kept b
  object : ∀ (o : Nat) (a : StreamObject), g.objects[o]? = some a → ∃ b, t.objects[o]? = some b ∧ a.Kept b
  stream : ∀ id o, g.streams.get id = some o → t.streams.get id = some o

theorem extends_refl (g : Graph) : Extends g g where
  output := fun _ a found => ⟨a, found, rfl, rfl, fun _ bound => bound⟩
  object := fun _ a found => ⟨a, found, object_kept a⟩
  stream := fun _ _ found => found

theorem extends_trans (g t u : Graph) (first : Extends g t) (second : Extends t u) : Extends g u := by
  constructor
  · intro k a found
    obtain ⟨b, middle, kept⟩ := first.output k a found
    obtain ⟨c, last, later⟩ := second.output k b middle
    exact ⟨c, last, later.owner.trans kept.owner, later.name.trans kept.name,
      fun n bound => later.consumer n (kept.consumer n bound)⟩
  · intro o a found
    obtain ⟨b, middle, kept⟩ := first.object o a found
    obtain ⟨c, last, later⟩ := second.object o b middle
    exact ⟨c, last, later.id.trans kept.id, later.output.trans kept.output, grown_trans kept.listing later.listing⟩
  · intro id o found
    exact second.stream id o (first.stream id o found)

theorem append_getElem? {A : Type} {l : List A} {a : A} {k : Nat} (found : l[k]? = some a) (b : A) :
    (l ++ [b])[k]? = some a := by
  obtain ⟨low, _⟩ := List.getElem?_eq_some_iff.mp found
  rwa [List.getElem?_append_left low]

theorem extends_outputs {g : Graph} {outputs : List Output}
    (kept : ∀ (k : Nat) (a : Output), g.outputs[k]? = some a → ∃ b, outputs[k]? = some b ∧ a.Kept b) :
    Extends g { g with outputs } :=
  { extends_refl g with output := kept }

theorem extends_objects {g : Graph} {objects : List StreamObject}
    (kept : ∀ (o : Nat) (a : StreamObject), g.objects[o]? = some a → ∃ b, objects[o]? = some b ∧ a.Kept b) :
    Extends g { g with objects } :=
  { extends_refl g with object := kept }

section Primitives
variable {C : Type} {r : RuntimeConfig} {serviceId : Int} {create : Int → Int → Checked C}

theorem makeLinkRecorder_extends (source target : Int) : Moves Extends (makeLinkRecorder source target) :=
  fun g => { extends_refl g with }

theorem newOutput_extends (output : Output) : Moves Extends (newOutput output) :=
  fun _ => extends_outputs fun _ a found => ⟨a, append_getElem? found output, rfl, rfl, fun _ bound => bound⟩

theorem newObject_extends (object : StreamObject) : Moves Extends (newObject object) :=
  fun _ => extends_objects fun _ a found => ⟨a, append_getElem? found object, object_kept a⟩

theorem updateObject_extends (o : Nat) {change : StreamObject → StreamObject}
    (kept : ∀ a : StreamObject, a.Kept (change a)) :
    Moves Extends (updateObject o change) := by
  intro g
  apply extends_objects
  intro n a found
  rw [List.getElem?_modify, found]
  by_cases here : o = n
  · exact ⟨change a, by simp [here], kept a⟩
  · exact ⟨a, by simp [here], object_kept a⟩

theorem registerStream_cases (o : Nat) (g : Graph) : final (registerStream o g) = g ∨
    ∃ object, g.objects[o]? = some object ∧ g.streams.has object.id = false ∧
      final (registerStream o g) = { g with streams := g.streams.set object.id o } := by
  simp only [registerStream, bind, EStateM.bind, get, getThe, MonadStateOf.get, EStateM.get]
  cases found : g.objects[o]? with
  | none => exact Or.inl rfl
  | some object =>
    cases taken : g.streams.has object.id with
    | true =>
      left
      simp only [taken, if_true]
      rfl
    | false =>
      right
      refine ⟨object, rfl, taken, ?_⟩
      simp only [taken, Bool.false_eq_true, if_false]
      rfl

theorem registerStream_extends (o : Nat) : Moves Extends (registerStream o) := by
  intro g
  rcases registerStream_cases o g with same | ⟨object, _, fresh, changed⟩
  · rw [same]
    exact extends_refl g
  · rw [changed]
    refine { extends_refl g with stream := ?_ }
    intro id n found
    have other : id ≠ object.id := by
      intro again
      rw [again] at found
      simp [OrderedMap.has, found] at fresh
    rw [OrderedMap.get_set_of_ne _ _ other]
    exact found

def Still (g t : Graph) : Prop := t = g

theorem still_refl (g : Graph) : Still g g := rfl

theorem still_trans (g t u : Graph) (first : Still g t) (second : Still t u) : Still g u := second.trans first

theorem checked_still {A : Type} (check : Checked A) : Moves Still (checked check) := by
  cases check with
  | ok a => exact moves_pure still_refl a
  | error e => exact moves_throw still_refl e

theorem checkBody_still (r : RuntimeConfig) (output : Output) (consumer : Int) :
    Moves Still (checkBody r output consumer) := by
  unfold checkBody
  split
  · apply moves_bind still_trans (checked_still _)
    intro consumers
    apply moves_bind still_trans (checked_still _)
    intro own
    split
    · exact moves_throw still_refl _
    · exact moves_pure still_refl ()
  · exact moves_pure still_refl ()

def bound (g : Graph) (k : Nat) (consumer : Int) : Graph :=
  { g with outputs := g.outputs.modify k fun o => { o with consumer := some consumer } }

/-- The caller is bound as well, with a recorder of its own. -/
def called (g : Graph) (k : Nat) (owner consumer : Int) : Graph :=
  { bound g k consumer with
    outputs := (bound g k consumer).outputs.modify k fun o => { o with caller := some g.recorders.length }
    recorders := g.recorders ++ [{ source := owner, target := consumer }]
    linkCallCounts := g.linkCallCounts.set (linkKey owner consumer) g.recorders.length }

theorem setConsumer_cases (r : RuntimeConfig) (create : Int → Int → Checked C) (k : Nat) (consumer : Int) (g : Graph) :
    final (setConsumer r create k consumer g) = g ∨
    ∃ output, g.outputs[k]? = some output ∧ output.consumer = none ∧
      (final (setConsumer r create k consumer g) = bound g k consumer ∨
        final (setConsumer r create k consumer g) = called g k output.owner consumer) := by
  simp only [setConsumer, bind, EStateM.bind, get, getThe, MonadStateOf.get, EStateM.get]
  cases found : g.outputs[k]? with
  | none => exact Or.inl rfl
  | some output =>
    have still := checkBody_still r output consumer g
    dsimp only
    unfold EStateM.bind
    cases run : checkBody r output consumer g with
    | error e t =>
      rw [run] at still
      exact Or.inl still
    | ok passed t =>
      rw [run] at still
      cases still
      cases taken : output.consumer with
      | some other => exact Or.inl rfl
      | none =>
        right
        refine ⟨output, rfl, taken, ?_⟩
        cases made : create output.owner consumer with
        | error e =>
          left
          simp only [makeCaller, made]
          rfl
        | ok caller =>
          right
          simp only [makeCaller, made]
          rfl

theorem outputs_modify {outputs : List Output} {k n : Nat} {a : Output} (found : outputs[n]? = some a)
    {change : Output → Output} (kept : k = n → a.Kept (change a)) :
    ∃ b, (outputs.modify k change)[n]? = some b ∧ a.Kept b := by
  rw [List.getElem?_modify, found]
  by_cases here : k = n
  · exact ⟨change a, by simp [here], kept here⟩
  · exact ⟨a, by simp [here], rfl, rfl, fun _ given => given⟩

theorem bound_extends {g : Graph} {k : Nat} {output : Output} (found : g.outputs[k]? = some output)
    (free : output.consumer = none) (consumer : Int) : Extends g (bound g k consumer) := by
  apply extends_outputs
  intro n a here
  apply outputs_modify here
  rintro rfl
  rw [found] at here
  cases here
  exact ⟨rfl, rfl, fun c given => by rw [free] at given; cases given⟩

theorem called_extends (g : Graph) (k : Nat) (owner consumer : Int) :
    Extends (bound g k consumer) (called g k owner consumer) where
  output := fun _ _ here => outputs_modify here fun _ => ⟨rfl, rfl, fun _ given => given⟩
  object := fun _ a here => ⟨a, here, object_kept a⟩
  stream := fun _ _ here => here

theorem setConsumer_extends (k : Nat) (consumer : Int) : Moves Extends (setConsumer r create k consumer) := by
  intro g
  rcases setConsumer_cases r create k consumer g with same | ⟨output, found, free, changed | changed⟩
  · rw [same]
    exact extends_refl g
  · rw [changed]
    exact bound_extends found free consumer
  · rw [changed]
    exact extends_trans _ _ _ (bound_extends found free consumer) (called_extends g k output.owner consumer)

theorem recordCall_extends (g : Graph) (recorder : Nat) : Extends g (recordCall g recorder) := by
  unfold recordCall
  split
  · exact extends_refl g
  · exact { extends_refl g with }

end Primitives

theorem pushLink_kept (k : Nat) (a : StreamObject) : a.Kept (pushLink k a) := by
  unfold pushLink
  split
  · rename_i outputs listed
    exact ⟨rfl, rfl, by rw [listed]; exact List.prefix_append outputs [k]⟩
  · exact object_kept a

theorem pushWhen_kept (w : Nat) (a : StreamObject) : a.Kept (pushWhen w a) := by
  unfold pushWhen
  split
  · rename_i streams listed
    exact ⟨rfl, rfl, by rw [listed]; exact List.prefix_append streams [w]⟩
  · exact object_kept a

theorem pushLink_calls (k : Nat) (a : StreamObject) : (pushLink k a).ownerCalls = a.ownerCalls := by
  unfold pushLink
  split
  · rfl
  · rfl

theorem pushWhen_calls (w : Nat) (a : StreamObject) : (pushWhen w a).ownerCalls = a.ownerCalls := by
  unfold pushWhen
  split
  · rfl
  · rfl

theorem errorStream_moves {R : Graph → Graph → Prop} (trans : ∀ g t u, R g t → R t u → R g u)
    (output : ∀ output, output.consumer = none → output.caller = none → Moves R (newOutput output))
    (object : ∀ object, Moves R (newObject object)) (register : ∀ o, Moves R (registerStream o))
    (recorder : ∀ source target, Moves R (makeLinkRecorder source target))
    (update : ∀ o (change : StreamObject → StreamObject), (∀ a : StreamObject, a.Kept (change a)) →
      Moves R (updateObject o change)) (config : StreamConfig) : Moves R (errorStream config) := by
  apply moves_bind trans (moves_bind trans (output _ rfl rfl) fun _ => object _)
  intro o
  apply moves_bind trans (register o)
  intro _
  apply moves_bind trans (recorder _ _)
  intro made
  exact update o _ fun _ => ⟨rfl, rfl, grown_refl _⟩

def Action.isCall : Action → Bool
  | .call _ | .errorCall _ => true
  | _ => false

def recorderOf (g : Graph) : Action → Option Nat
  | .call k => (g.outputs[k]?).bind Output.caller
  | .errorCall o => (g.objects[o]?).bind StreamObject.ownerCalls
  | _ => none

/-- What the parts of the constructors do has to be lawful; then so is every step
    that is not a call. -/
structure Lawful {C : Type} (r : RuntimeConfig) (create : Int → Int → Checked C) (R : Graph → Graph → Prop) : Prop where
  refl : ∀ g, R g g
  trans : ∀ g t u, R g t → R t u → R g u
  output : ∀ output, output.consumer = none → output.caller = none → Moves R (newOutput output)
  object : ∀ object, object.ownerCalls = none → Moves R (newObject object)
  register : ∀ o, Moves R (registerStream o)
  bind : ∀ k consumer, Moves R (setConsumer r create k consumer)
  error : ∀ config, Moves R (errorStream config)
  update : ∀ o (change : StreamObject → StreamObject), (∀ a : StreamObject, a.Kept (change a)) →
    (∀ a : StreamObject, (change a).ownerCalls = a.ownerCalls) → Moves R (updateObject o change)

section Constructors
variable {C : Type} {r : RuntimeConfig} {serviceId : Int} {create : Int → Int → Checked C}
variable {R : Graph → Graph → Prop} (law : Lawful r create R)

include law

theorem newStream_moves (id config : Int) (name : String) (type : TransformationType) (listing : Listing) :
    Moves R (newStream id config name type listing) :=
  moves_bind law.trans (law.output _ rfl rfl) fun _ => law.object _ rfl

theorem bindRegister_moves (k : Nat) (consumer : Int) (o : Nat) :
    Moves R (do
      setConsumer r create k consumer
      registerStream o) :=
  moves_bind law.trans (law.bind k consumer) fun _ => law.register o

theorem consumingStream_moves (config : StreamConfig) (source : Nat) :
    Moves R (consumingStream r create config source) :=
  moves_bind law.trans (newStream_moves law _ _ _ _ _) fun o => bindRegister_moves law source config.id o

theorem processStream_moves (config : StreamConfig) (source : Nat) : Moves R (processStream r create config source) := by
  apply moves_bind law.trans (newStream_moves law _ _ _ _ _)
  intro o
  exact moves_bind law.trans (law.error config) fun _ => bindRegister_moves law source config.id o

theorem sinkStream_moves (config : StreamConfig) (withResult : Bool) (source : Nat) :
    Moves R (sinkStream r create config withResult source) := by
  apply moves_bind law.trans (newStream_moves law _ _ _ _ _)
  intro o
  exact moves_bind law.trans (law.error config) fun _ => bindRegister_moves law source config.id o

theorem inputStream_moves (config : StreamConfig) : Moves R (inputStream config) := by
  apply moves_bind law.trans (newStream_moves law _ _ _ _ _)
  intro o
  exact moves_bind law.trans (law.error config) fun _ => law.register o

theorem subStream_moves (config : StreamConfig) : Moves R (subStream serviceId config) := by
  apply moves_bind law.trans (newStream_moves law _ _ _ _ _)
  intro o
  split
  · exact moves_throw law.refl _
  · exact law.register o

theorem mergeStream_moves (config : StreamConfig) (sources : List Nat) :
    Moves R (mergeStream r create config sources) := by
  apply moves_bind law.trans (newStream_moves law _ _ _ _ _)
  intro o
  apply moves_bind law.trans (law.register o)
  intro _
  exact moves_forM law.refl law.trans fun source _ => law.bind source config.id

theorem joinStream_moves (config : StreamConfig) (left right : Nat) :
    Moves R (joinStream r create config left right) := by
  apply moves_bind law.trans (newStream_moves law _ _ _ _ _)
  intro o
  apply moves_bind law.trans (law.bind left config.id)
  intro _
  exact moves_bind law.trans (law.register o) fun _ => law.bind right config.id

theorem construct_moves {config : StreamConfig} {withResult : Bool} {sources : List Nat} {m : Building Unit}
    (made : construct r serviceId create config withResult sources = some m) : Moves R m := by
  unfold construct at made
  split at made
  · split at made <;> cases made
    · exact inputStream_moves law config
    · exact moves_bind law.trans (newStream_moves law _ _ _ _ _) fun o => law.register o
    · exact subStream_moves law config
  · rename_i source
    split at made <;> cases made
    case h_8 => exact processStream_moves law config source
    case h_9 => exact sinkStream_moves law config withResult source
    case h_10 => exact mergeStream_moves law config [source]
    case h_11 =>
      exact moves_bind law.trans (newStream_moves law _ _ _ _ _) fun o => bindRegister_moves law source config.id o
    case h_12 =>
      apply moves_bind law.trans (newStream_moves law _ _ _ _ _)
      intro o
      exact moves_bind law.trans (law.register o) fun _ => law.bind source config.id
    all_goals exact consumingStream_moves law config source
  · split at made <;> cases made
    · exact mergeStream_moves law config _
    · exact joinStream_moves law config _ _

theorem addSplitLink_moves (o : Nat) : Moves R (addSplitLink o) := by
  apply moves_bind law.trans (moves_get law.refl)
  intro g
  split
  · exact moves_pure law.refl ()
  · split
    · exact moves_bind law.trans (law.output _ rfl rfl) fun k => law.update o _ (pushLink_kept k) (pushLink_calls k)
    · exact moves_pure law.refl ()

theorem addWhen_moves (o : Nat) (config : StreamConfig) : Moves R (addWhen o config) := by
  apply moves_bind law.trans (moves_get law.refl)
  intro g
  split
  · exact moves_pure law.refl ()
  · split
    · apply moves_bind law.trans (newStream_moves law _ _ _ _ _)
      intro w
      exact moves_bind law.trans (law.register w) fun _ => law.update o _ (pushWhen_kept w) (pushWhen_calls w)
    · exact moves_pure law.refl ()

theorem bindSource_moves (o k : Nat) (consumer : Int) :
    Moves R (do
      setConsumer r create k consumer
      updateObject o fun object => { object with source := some k }) :=
  moves_bind law.trans (law.bind k consumer) fun _ => law.update o _ (fun _ => ⟨rfl, rfl, grown_refl _⟩) fun _ => rfl

theorem setSource_moves (o k : Nat) : Moves R (setSource r create o k) := by
  have quiet : ∀ {A : Type} (check : Checked A), Moves R (checked check) := by
    intro A check
    cases check with
    | ok a => exact moves_pure law.refl a
    | error e => exact moves_throw law.refl e
  apply moves_bind law.trans (moves_get law.refl)
  intro g
  split
  · rename_i object source _ _
    split
    · split
      · exact moves_throw law.refl _
      · exact bindSource_moves law o k object.id
    · split
      · exact moves_throw law.refl _
      · exact bindSource_moves law o k object.id
    · split
      · exact moves_throw law.refl _
      · apply moves_bind law.trans (quiet _)
        intro sources
        apply moves_bind law.trans (quiet _)
        intro own
        split
        · exact moves_throw law.refl _
        · split
          · exact moves_pure law.refl ()
          · split
            · exact moves_throw law.refl _
            · exact bindSource_moves law o k object.id
    · exact moves_pure law.refl ()
  · exact moves_pure law.refl ()

theorem bindMultiJoinRight_moves (o k : Nat) : Moves R (bindMultiJoinRight r create o k) := by
  apply moves_bind law.trans (moves_get law.refl)
  intro g
  split
  · split
    · exact law.bind k _
    · exact moves_pure law.refl ()
  · exact moves_pure law.refl ()

theorem step_cases {g t : Graph} {a : Action} (next : step r serviceId create g a = some t) :
    (a.isCall = false ∧ R g t) ∨ ∃ n, a.isCall = true ∧ recorderOf g a = some n ∧ t = recordCall g n := by
  cases a with
  | construct config withResult sources =>
    obtain ⟨m, made, rfl⟩ := Option.map_eq_some_iff.mp next
    exact Or.inl ⟨rfl, construct_moves law made g⟩
  | addSplitLink o =>
    cases next
    exact Or.inl ⟨rfl, addSplitLink_moves law o g⟩
  | addWhen o config =>
    cases next
    exact Or.inl ⟨rfl, addWhen_moves law o config g⟩
  | setSource o k =>
    cases next
    exact Or.inl ⟨rfl, setSource_moves law o k g⟩
  | bindMultiJoinRight o k =>
    cases next
    exact Or.inl ⟨rfl, bindMultiJoinRight_moves law o k g⟩
  | call k =>
    obtain ⟨n, found, rfl⟩ := Option.map_eq_some_iff.mp next
    exact Or.inr ⟨n, rfl, found, rfl⟩
  | errorCall o =>
    obtain ⟨n, found, rfl⟩ := Option.map_eq_some_iff.mp next
    exact Or.inr ⟨n, rfl, found, rfl⟩

theorem run_moves (call : ∀ g n, R g (recordCall g n)) {g t : Graph}
    (run : Transitions.Steps (step r serviceId create) Transitions.Any g t) : R g t := by
  induction run with
  | refl => exact law.refl g
  | tail _ _ next ih =>
    apply law.trans _ _ _ ih
    rcases step_cases law next with ⟨_, moved⟩ | ⟨n, _, _, rfl⟩
    · exact moved
    · exact call _ n

end Constructors

theorem extends_lawful {C : Type} (r : RuntimeConfig) (create : Int → Int → Checked C) : Lawful r create Extends where
  refl := extends_refl
  trans := extends_trans
  output := fun output _ _ => newOutput_extends output
  object := fun object _ => newObject_extends object
  register := registerStream_extends
  bind := setConsumer_extends
  error := errorStream_moves extends_trans (fun output _ _ => newOutput_extends output) newObject_extends
    registerStream_extends makeLinkRecorder_extends fun o _ kept => updateObject_extends o kept
  update := fun o _ kept _ => updateObject_extends o kept

end StreamGraphs
