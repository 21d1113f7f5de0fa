import TsServiceLib.Graph.Topology

/-!
The calls that are counted on the links, in both environments. Each caller has a
recorder of its own, and a link may have several: two links of a split stream
can lead to one merge. The environment of a workflow counts the calls of a link
whichever recorder they go to; the one of a service tells the count of the
recorder that was made last, and forgets the others.
-/
namespace StreamGraphs
open ConfigValues ConfigParsers RuntimeConfigs OrderedMaps Effects

def Records (g : Graph) (n : Nat) (source target : Int) : Prop :=
  ∃ found, g.recorders[n]? = some found ∧ found.source = source ∧ found.target = target

/-- Callers go to recorders of their own link, and the one that is told is the
    link's last. -/
structure Paired (g : Graph) : Prop where
  caller : ∀ (k : Nat) (output : Output) (n : Nat), g.outputs[k]? = some output → output.caller = some n →
    ∃ consumer, output.consumer = some consumer ∧ Records g n output.owner consumer
  owner : ∀ (o : Nat) (object : StreamObject) (n : Nat), g.objects[o]? = some object → object.ownerCalls = some n →
    Records g n (-object.id) object.id
  told : ∀ source target n, g.linkCallCounts.get (linkKey source target) = some n → Records g n source target
  last : ∀ n source target, Records g n source target →
    ∃ m, g.linkCallCounts.get (linkKey source target) = some m ∧ n ≤ m

structure CountsKept (g t : Graph) : Prop where
  paired : Paired t
  recorders : ∃ more : List Recorder, t.recorders = g.recorders ++ more ∧ ∀ made ∈ more, made.count = 0
  workflow : t.workflowCallCounts = g.workflowCallCounts
  recorder : ∀ a n, recorderOf g a = some n → recorderOf t a = some n

theorem countsKept_refl {g : Graph} (paired : Paired g) : CountsKept g g :=
  ⟨paired, ⟨[], by simp⟩, rfl, fun _ _ found => found⟩

theorem countsKept_trans {g t u : Graph} (first : CountsKept g t) (second : CountsKept t u) : CountsKept g u := by
  obtain ⟨more, made, fresh⟩ := first.recorders
  obtain ⟨further, later, new⟩ := second.recorders
  refine ⟨second.paired, ⟨more ++ further, by rw [later, made, List.append_assoc], ?_⟩,
    second.workflow.trans first.workflow, fun a n found => second.recorder a n (first.recorder a n found)⟩
  intro recorder mem
  rcases List.mem_append.mp mem with before | after
  · exact fresh recorder before
  · exact new recorder after

section Parts
variable {g : Graph} (paired : Paired g)

include paired

theorem outputs_kept {outputs : List Output}
    (caller : ∀ (k : Nat) (output : Output) (n : Nat), outputs[k]? = some output → output.caller = some n →
      ∃ consumer, output.consumer = some consumer ∧ Records g n output.owner consumer)
    (kept : ∀ (k n : Nat), (g.outputs[k]?).bind Output.caller = some n → (outputs[k]?).bind Output.caller = some n) :
    CountsKept g { g with outputs } := by
  refine ⟨⟨caller, paired.owner, paired.told, paired.last⟩, ⟨[], by simp⟩, rfl, ?_⟩
  intro a n found
  cases a with
  | call k => exact kept k n found
  | _ => exact found

theorem objects_kept {objects : List StreamObject}
    (owner : ∀ (o : Nat) (object : StreamObject) (n : Nat), objects[o]? = some object → object.ownerCalls = some n →
      Records g n (-object.id) object.id)
    (kept : ∀ (o n : Nat), (g.objects[o]?).bind StreamObject.ownerCalls = some n →
      (objects[o]?).bind StreamObject.ownerCalls = some n) :
    CountsKept g { g with objects } := by
  refine ⟨⟨paired.caller, owner, paired.told, paired.last⟩, ⟨[], by simp⟩, rfl, ?_⟩
  intro a n found
  cases a with
  | errorCall o => exact kept o n found
  | _ => exact found

theorem newOutput_kept {output : Output} (free : output.caller = none) : CountsKept g (final (newOutput output g)) := by
  apply outputs_kept paired
  · intro k a n found called
    rcases List.getElem?_append .. ▸ found with here
    split at here
    · exact paired.caller k a n here called
    · have same : a = output := List.mem_singleton.mp (List.mem_of_getElem? here)
      rw [same, free] at called
      cases called
  · intro k n found
    obtain ⟨a, here, called⟩ := Option.bind_eq_some_iff.mp found
    rw [append_getElem? here output]
    exact called

theorem newObject_kept {object : StreamObject} (free : object.ownerCalls = none) :
    CountsKept g (final (newObject object g)) := by
  apply objects_kept paired
  · intro o a n found called
    rcases List.getElem?_append .. ▸ found with here
    split at here
    · exact paired.owner o a n here called
    · have same : a = object := List.mem_singleton.mp (List.mem_of_getElem? here)
      rw [same, free] at called
      cases called
  · intro o n found
    obtain ⟨a, here, called⟩ := Option.bind_eq_some_iff.mp found
    rw [append_getElem? here object]
    exact called

theorem updateObject_kept (o : Nat) {change : StreamObject → StreamObject}
    (kept : ∀ a : StreamObject, a.Kept (change a)) (calls : ∀ a : StreamObject, (change a).ownerCalls = a.ownerCalls) :
    CountsKept g (final (updateObject o change g)) := by
  apply objects_kept paired
  · intro p a n found called
    rw [List.getElem?_modify] at found
    obtain ⟨before, here, changed⟩ := Option.map_eq_some_iff.mp found
    split at changed
    · rw [← changed, calls] at called
      rw [← changed, (kept before).id]
      exact paired.owner p before n here called
    · rw [← changed] at called ⊢
      exact paired.owner p before n here called
  · intro p n found
    obtain ⟨a, here, called⟩ := Option.bind_eq_some_iff.mp found
    rw [List.getElem?_modify, here]
    by_cases own : o = p
    · simp [own, calls, called]
    · simp [own, called]

theorem free_uncalled {k : Nat} {output : Output} (found : g.outputs[k]? = some output) (free : output.consumer = none) :
    output.caller = none := by
  cases called : output.caller with
  | none => rfl
  | some n =>
    obtain ⟨other, given, _⟩ := paired.caller k output n found called
    rw [free] at given
    cases given

theorem bound_kept {k : Nat} {output : Output} (found : g.outputs[k]? = some output) (free : output.consumer = none)
    (consumer : Int) : CountsKept g (bound g k consumer) := by
  have uncalled := free_uncalled paired found free
  apply outputs_kept paired
  · intro j a n here called
    rw [List.getElem?_modify] at here
    obtain ⟨before, was, changed⟩ := Option.map_eq_some_iff.mp here
    split at changed
    · rename_i own
      rw [← own, found] at was
      cases was
      rw [← changed, uncalled] at called
      cases called
    · rw [← changed] at called ⊢
      exact paired.caller j before n was called
  · intro j n here
    obtain ⟨a, was, called⟩ := Option.bind_eq_some_iff.mp here
    rw [List.getElem?_modify, was]
    by_cases own : k = j
    · simp [own, called]
    · simp [own, called]

/-- One more recorder, which is the one that is told from now on. -/
theorem makeLinkRecorder_kept (source target : Int) : CountsKept g (final (makeLinkRecorder source target g)) := by
  have earlier : ∀ n a b, Records g n a b → Records (final (makeLinkRecorder source target g)) n a b :=
    fun n a b ⟨found, here, pair⟩ => ⟨found, append_getElem? here _, pair⟩
  have latest : Records (final (makeLinkRecorder source target g)) g.recorders.length source target :=
    ⟨{ source, target }, List.getElem?_concat_length, rfl, rfl⟩
  refine ⟨⟨?_, ?_, ?_, ?_⟩, ⟨[{ source, target }], rfl, by simp⟩, rfl, fun _ _ found => found⟩
  · intro k output n found called
    obtain ⟨consumer, given, records⟩ := paired.caller k output n found called
    exact ⟨consumer, given, earlier n _ _ records⟩
  · intro o object n found called
    exact earlier n _ _ (paired.owner o object n found called)
  · intro a b n told
    change (g.linkCallCounts.set (linkKey source target) g.recorders.length).get (linkKey a b) = some n at told
    rw [OrderedMap.get_set] at told
    split at told
    · rename_i same
      obtain ⟨rfl, rfl⟩ := linkKey_injective same
      cases told
      exact latest
    · exact earlier n a b (paired.told a b n told)
  · rintro n a b ⟨found, here, pair⟩
    change ∃ m, (g.linkCallCounts.set (linkKey source target) g.recorders.length).get (linkKey a b) = some m ∧ n ≤ m
    change (g.recorders ++ [{ source := source, target := target }])[n]? = some found at here
    have bound : n < g.recorders.length + 1 := by
      obtain ⟨low, _⟩ := List.getElem?_eq_some_iff.mp here
      simpa using low
    rw [OrderedMap.get_set]
    split
    · exact ⟨g.recorders.length, rfl, by omega⟩
    · rename_i other
      rcases Nat.lt_or_ge n g.recorders.length with low | high
      · rw [List.getElem?_append_left low] at here
        exact paired.last n a b ⟨found, here, pair⟩
      · have own : n = g.recorders.length := by omega
        rw [own, List.getElem?_concat_length] at here
        cases here
        obtain ⟨rfl, rfl⟩ := pair
        exact absurd rfl other

theorem caller_kept {k n : Nat} {output : Output} {consumer : Int} (found : g.outputs[k]? = some output)
    (given : output.consumer = some consumer) (uncalled : output.caller = none)
    (records : Records g n output.owner consumer) :
    CountsKept g { g with outputs := g.outputs.modify k fun o => { o with caller := some n } } := by
  apply outputs_kept paired
  · intro j a m here called
    rw [List.getElem?_modify] at here
    obtain ⟨before, was, changed⟩ := Option.map_eq_some_iff.mp here
    split at changed
    · rename_i own
      rw [← own, found] at was
      cases was
      rw [← changed] at called ⊢
      cases called
      exact ⟨consumer, given, records⟩
    · rw [← changed] at called ⊢
      exact paired.caller j before m was called
  · intro j m here
    obtain ⟨a, was, called⟩ := Option.bind_eq_some_iff.mp here
    rw [List.getElem?_modify, was]
    by_cases own : k = j
    · rw [← own, found] at was
      cases was
      rw [uncalled] at called
      cases called
    · simp [own, called]

theorem owner_kept {o n : Nat} {object : StreamObject} (found : g.objects[o]? = some object)
    (uncalled : object.ownerCalls = none) (records : Records g n (-object.id) object.id) :
    CountsKept g (final (updateObject o (fun object => { object with ownerCalls := some n }) g)) := by
  apply objects_kept paired
  · intro p a m here called
    rw [List.getElem?_modify] at here
    obtain ⟨before, was, changed⟩ := Option.map_eq_some_iff.mp here
    split at changed
    · rename_i own
      rw [← own, found] at was
      cases was
      rw [← changed] at called ⊢
      cases called
      exact records
    · rw [← changed] at called ⊢
      exact paired.owner p before m was called
  · intro p m here
    obtain ⟨a, was, called⟩ := Option.bind_eq_some_iff.mp here
    rw [List.getElem?_modify, was]
    by_cases own : o = p
    · rw [← own, found] at was
      cases was
      rw [uncalled] at called
      cases called
    · simp [own, called]

theorem registerStream_kept (o : Nat) : CountsKept g (final (registerStream o g)) := by
  rcases registerStream_cases o g with same | ⟨object, _, _, changed⟩
  · rw [same]
    exact countsKept_refl paired
  · rw [changed]
    exact ⟨⟨paired.caller, paired.owner, paired.told, paired.last⟩, ⟨[], by simp⟩, rfl, fun a n found => by
      cases a <;> exact found⟩

end Parts

section Laws
variable {C : Type} {r : RuntimeConfig} {serviceId : Int} {create : Int → Int → Checked C}

theorem setConsumer_kept {g : Graph} (paired : Paired g) (k : Nat) (consumer : Int) :
    CountsKept g (final (setConsumer r create k consumer g)) := by
  rcases setConsumer_cases r create k consumer g with same | ⟨output, found, free, changed | changed⟩
  · rw [same]
    exact countsKept_refl paired
  · rw [changed]
    exact bound_kept paired found free consumer
  · rw [changed]
    have first := bound_kept paired found free consumer
    have second := makeLinkRecorder_kept first.paired output.owner consumer
    have here : (final (makeLinkRecorder output.owner consumer (bound g k consumer))).outputs[k]? =
        some { output with consumer := some consumer } := by
      change (g.outputs.modify k _)[k]? = _
      rw [List.getElem?_modify, found]
      simp
    have uncalled := free_uncalled paired found free
    have records : Records (final (makeLinkRecorder output.owner consumer (bound g k consumer))) g.recorders.length
        output.owner consumer :=
      ⟨{ source := output.owner, target := consumer }, List.getElem?_concat_length, rfl, rfl⟩
    exact countsKept_trans (countsKept_trans first second) (caller_kept second.paired here rfl uncalled records)

/-- An error stream, with the recorder for the calls of its owner. -/
theorem errorStream_kept {g : Graph} (paired : Paired g) (config : StreamConfig) :
    CountsKept g (final (errorStream config g)) := by
  let o := g.objects.length
  let output : Output := { owner := -config.id, config := config.id, name := config.name }
  let object : StreamObject :=
    { id := -config.id, name := config.name, type := .Error, output := g.outputs.length, listing := .own }
  let made : Graph := { g with outputs := g.outputs ++ [output], objects := g.objects ++ [object] }
  have first : CountsKept g made := by
    have before := @newOutput_kept g paired output rfl
    exact countsKept_trans before (@newObject_kept _ before.paired object rfl)
  change CountsKept g (final (EStateM.bind (registerStream o) (fun _ =>
    EStateM.bind (makeLinkRecorder config.id (-config.id)) fun recorder =>
      updateObject o fun object => { object with ownerCalls := some recorder }) made))
  have second := countsKept_trans first (registerStream_kept first.paired o)
  have objects : (final (registerStream o made)).objects = made.objects := by
    rcases registerStream_cases o made with same | ⟨_, _, _, changed⟩
    · rw [same]
    · rw [changed]
  unfold EStateM.bind
  cases run : registerStream o made with
  | error e t =>
    rw [run] at second
    exact second
  | ok passed t =>
    rw [run] at second objects
    have third := makeLinkRecorder_kept second.paired config.id (-config.id)
    have here : (final (makeLinkRecorder config.id (-config.id) t)).objects[o]? = made.objects[o]? :=
      congrArg (·[o]?) objects
    rw [List.getElem?_concat_length] at here
    have records : Records (final (makeLinkRecorder config.id (-config.id) t)) t.recorders.length
        (- -config.id) (-config.id) :=
      ⟨{ source := config.id, target := -config.id }, List.getElem?_concat_length, (neg_neg _).symm, rfl⟩
    exact countsKept_trans (countsKept_trans second third) (owner_kept third.paired here rfl records)

/-- Constructions keep the books, as far as they are in order. -/
theorem counts_lawful : Lawful r create fun g t => Paired g → CountsKept g t where
  refl := fun _ paired => countsKept_refl paired
  trans := fun _ _ _ first second paired => countsKept_trans (first paired) (second (first paired).paired)
  output := fun _ _ free _ paired => newOutput_kept paired free
  object := fun _ free _ paired => newObject_kept paired free
  register := fun o _ paired => registerStream_kept paired o
  bind := fun k consumer _ paired => setConsumer_kept paired k consumer
  error := fun config _ paired => errorStream_kept paired config
  update := fun o _ kept calls _ paired => updateObject_kept paired o kept calls

end Laws

section Counting
variable {g : Graph}

def countOf (g : Graph) (n : Nat) : Nat := ((g.recorders[n]?).map Recorder.count).getD 0

/-- The action is a call from the source to the target: from an output of the one
    that has the other as its consumer, or from a stream to its error stream. -/
def callsLink (g : Graph) (source target : Int) : Action → Bool
  | .call k => (g.outputs[k]?).any fun output => output.owner == source && output.consumer == some target
  | .errorCall o => (g.objects[o]?).any fun object => -object.id == source && object.id == target
  | _ => false

theorem records_unique {n : Nat} {a b c d : Int} (first : Records g n a b) (second : Records g n c d) :
    a = c ∧ b = d := by
  obtain ⟨found, here, rfl, rfl⟩ := first
  obtain ⟨again, there, rfl, rfl⟩ := second
  rw [here] at there
  cases there
  exact ⟨rfl, rfl⟩

theorem callsLink_iff (paired : Paired g) {a : Action} {n : Nat} (found : recorderOf g a = some n) (source target : Int) :
    callsLink g source target a = true ↔ Records g n source target := by
  have pair : ∀ {x y : Int}, Records g n x y → ((x == source && y == target) = true ↔ Records g n source target) := by
    intro x y records
    rw [Bool.and_eq_true, beq_iff_eq, beq_iff_eq]
    constructor
    · rintro ⟨rfl, rfl⟩
      exact records
    · exact records_unique records
  cases a with
  | call k =>
    obtain ⟨output, here, called⟩ := Option.bind_eq_some_iff.mp found
    obtain ⟨consumer, given, records⟩ := paired.caller k output n here called
    rw [← pair records, callsLink, here, Option.any_some, given]
    rfl
  | errorCall o =>
    obtain ⟨object, here, called⟩ := Option.bind_eq_some_iff.mp found
    rw [← pair (paired.owner o object n here called), callsLink, here, Option.any_some]
  | _ => cases found

theorem recordCall_counts (paired : Paired g) {n : Nat} {x y : Int} (records : Records g n x y) :
    Paired (recordCall g n) ∧ (∀ m a b, Records (recordCall g n) m a b ↔ Records g m a b) ∧
      (∀ a, recorderOf (recordCall g n) a = recorderOf g a) ∧
      (∀ source target, workflowLinkCallCount (recordCall g n) source target =
        workflowLinkCallCount g source target + if x = source ∧ y = target then 1 else 0) ∧
      ∀ m, countOf (recordCall g n) m = countOf g m + if n = m then 1 else 0 := by
  obtain ⟨found, here, rfl, rfl⟩ := records
  have changed : recordCall g n =
      { g with
        recorders := g.recorders.modify n fun at_ => { at_ with count := at_.count + 1 }
        workflowCallCounts := g.workflowCallCounts.set (linkKey found.source found.target)
          ((g.workflowCallCounts.get (linkKey found.source found.target)).getD 0 + 1) } := by
    rw [recordCall, here]
  have same : ∀ m a b, Records (recordCall g n) m a b ↔ Records g m a b := by
    intro m a b
    rw [changed]
    unfold Records
    rw [List.getElem?_modify]
    by_cases own : n = m
    · rw [← own, here]
      simp
    · simp [own]
  have calls : ∀ a, recorderOf (recordCall g n) a = recorderOf g a := by
    intro a
    rw [changed]
    cases a <;> rfl
  refine ⟨⟨?_, ?_, ?_, ?_⟩, same, calls, ?_, ?_⟩
  · intro k output m taken called
    rw [changed] at taken
    obtain ⟨consumer, given, records⟩ := paired.caller k output m taken called
    exact ⟨consumer, given, (same m _ _).mpr records⟩
  · intro o object m taken called
    rw [changed] at taken
    exact (same m _ _).mpr (paired.owner o object m taken called)
  · intro a b m told
    rw [changed] at told
    exact (same m a b).mpr (paired.told a b m told)
  · intro m a b records
    obtain ⟨top, told, above⟩ := paired.last m a b ((same m a b).mp records)
    exact ⟨top, by rw [changed]; exact told, above⟩
  · intro source target
    rw [changed]
    unfold workflowLinkCallCount
    dsimp only
    rw [OrderedMap.get_set]
    by_cases own : found.source = source ∧ found.target = target
    · obtain ⟨rfl, rfl⟩ := own
      simp
    · have other : linkKey source target ≠ linkKey found.source found.target := by
        intro equal
        obtain ⟨rfl, rfl⟩ := linkKey_injective equal
        exact own ⟨rfl, rfl⟩
      rw [if_neg other, if_neg own, Nat.add_zero]
  · intro m
    rw [changed]
    unfold countOf
    rw [List.getElem?_modify]
    by_cases own : n = m
    · rw [← own, here]
      simp
    · simp [own]

end Counting

section Runs
variable {C : Type} {r : RuntimeConfig} {serviceId : Int} {create : Int → Int → Checked C}

/-- What a graph has counted when actions have led from another one to it. -/
structure Counted (g t : Graph) (actions : List Action) : Prop where
  paired : Paired t
  records : ∀ n a b, Records g n a b → Records t n a b
  recorder : ∀ a n, recorderOf g a = some n → recorderOf t a = some n
  workflow : ∀ source target, workflowLinkCallCount t source target =
    workflowLinkCallCount g source target + actions.countP (callsLink t source target)
  count : ∀ n, countOf t n = countOf g n + actions.countP (recorderOf t · == some n)

theorem countsKept_counted {g t : Graph} (kept : CountsKept g t) : Counted g t [] := by
  obtain ⟨more, made, fresh⟩ := kept.recorders
  refine ⟨kept.paired, ?_, kept.recorder, ?_, ?_⟩
  · rintro n a b ⟨found, here, pair⟩
    obtain ⟨low, _⟩ := List.getElem?_eq_some_iff.mp here
    exact ⟨found, by rw [made, List.getElem?_append_left low, here], pair⟩
  · intro source target
    unfold workflowLinkCallCount
    rw [kept.workflow]
    rfl
  · intro n
    unfold countOf
    rw [made, List.countP_nil, Nat.add_zero]
    rcases Nat.lt_or_ge n g.recorders.length with low | high
    · rw [List.getElem?_append_left low]
    · rw [List.getElem?_append_right high, List.getElem?_eq_none high]
      cases added : more[n - g.recorders.length]? with
      | none => rfl
      | some new => exact fresh new (List.mem_of_getElem? added)

theorem uncounted {a : Action} (quiet : a.isCall = false) (t : Graph) :
    recorderOf t a = none ∧ ∀ source target, callsLink t source target a = false := by
  cases a with
  | call k => cases quiet
  | errorCall o => cases quiet
  | _ => exact ⟨rfl, fun _ _ => rfl⟩

/-- A run counts each call once, for its link and for its recorder. The induction
    is on the actions; a call's link is that of its recorder, which the later
    graphs keep. -/
theorem run_counted {g t : Graph} {actions : List Action}
    (executed : Transitions.exec (step r serviceId create) g actions = some t) (paired : Paired g) :
    Counted g t actions := by
  induction actions generalizing g with
  | nil =>
    cases executed
    exact countsKept_counted (countsKept_refl paired)
  | cons a rest ih =>
    obtain ⟨u, next, tail⟩ := Option.bind_eq_some_iff.mp executed
    rcases step_cases (@counts_lawful _ r create) next with ⟨quiet, moved⟩ | ⟨n, _, found, rfl⟩
    · have first := countsKept_counted (moved paired)
      have later := ih tail first.paired
      obtain ⟨unrecorded, uncalled⟩ := uncounted quiet t
      refine ⟨later.paired, fun n x y here => later.records n x y (first.records n x y here),
        fun b n here => later.recorder b n (first.recorder b n here), ?_, ?_⟩
      · intro source target
        have before := first.workflow source target
        have after := later.workflow source target
        rw [List.countP_cons, uncalled source target]
        simp only [List.countP_nil, Bool.false_eq_true, if_false] at before ⊢
        omega
      · intro n
        have before := first.count n
        have after := later.count n
        rw [List.countP_cons, unrecorded]
        simp only [List.countP_nil] at before
        simp only [reduceCtorEq, beq_iff_eq, if_false]
        omega
    · obtain ⟨x, y, records⟩ : ∃ x y, Records g n x y := by
        cases a with
        | call k =>
          obtain ⟨output, here, called⟩ := Option.bind_eq_some_iff.mp found
          obtain ⟨consumer, _, records⟩ := paired.caller k output n here called
          exact ⟨_, _, records⟩
        | errorCall o =>
          obtain ⟨object, here, called⟩ := Option.bind_eq_some_iff.mp found
          exact ⟨_, _, paired.owner o object n here called⟩
        | _ => cases found
      obtain ⟨kept, same, calls, workflow, count⟩ := recordCall_counts paired records
      have later := ih tail kept
      have recorded : recorderOf t a = some n := later.recorder a n (by rw [calls]; exact found)
      have there : Records t n x y := later.records n x y ((same n x y).mpr records)
      refine ⟨later.paired, fun m p q here => later.records m p q ((same m p q).mpr here),
        fun b m here => later.recorder b m (by rw [calls]; exact here), ?_, ?_⟩
      · intro source target
        have link : callsLink t source target a = true ↔ x = source ∧ y = target := by
          rw [callsLink_iff later.paired recorded]
          constructor
          · exact records_unique there
          · rintro ⟨rfl, rfl⟩
            exact there
        have before := workflow source target
        have after := later.workflow source target
        rw [List.countP_cons]
        simp only [link]
        omega
      · intro m
        have before := count m
        have after := later.count m
        rw [List.countP_cons, recorded]
        simp only [beq_iff_eq, Option.some.injEq]
        omega

theorem empty_paired : Paired {} where
  caller := fun k output n found => by simp at found
  owner := fun o object n found => by simp at found
  told := fun source target n found => by cases found
  last := fun n source target ⟨found, here, _⟩ => by simp at here

theorem countP_same {A : Type} {few many : A → Bool} {items : List A}
    (within : ∀ a ∈ items, few a = true → many a = true) :
    items.countP few ≤ items.countP many ∧
      (items.countP few = items.countP many ↔ ∀ a ∈ items, many a = true → few a = true) := by
  induction items with
  | nil => simp
  | cons a rest ih =>
    obtain ⟨below, equal⟩ := ih fun b mem => within b (List.mem_cons_of_mem a mem)
    have here := within a List.mem_cons_self
    rw [List.countP_cons, List.countP_cons, List.forall_mem_cons]
    cases first : few a with
    | true =>
      rw [here first, ← equal]
      simp only [if_true, implies_true, true_and]
      omega
    | false =>
      cases second : many a with
      | true => simp; omega
      | false =>
        rw [← equal]
        simp [below]

/-- The environment of a service tells the calls of one recorder. -/
theorem counted_told {g : Graph} {actions : List Action} (counted : Counted {} g actions) (source target : Int) :
    linkCallCount g source target =
      actions.countP (fun a => (recorderOf g a).any fun n => g.linkCallCounts.get (linkKey source target) == some n) := by
  unfold linkCallCount
  cases last : g.linkCallCounts.get (linkKey source target) with
  | none => simp
  | some n =>
    have count := counted.count n
    rw [show countOf {} n = 0 from rfl, Nat.zero_add] at count
    rw [Option.bind_some]
    apply count.trans
    congr 1
    funext a
    cases recorderOf g a with
    | none => rfl
    | some m => exact Bool.beq_comm ..

end Runs

/- Over every run of constructions and calls, whichever constructions throw. The
   environment of a workflow tells for each link how many calls were made on it.
   The one of a service tells how many of them went to the recorder made last for
   the link, so never more; both tell the same exactly if all went there. -/
theorem link_counts {C : Type} {r : RuntimeConfig} {serviceId : Int} {create : Int → Int → Checked C} {g : Graph}
    {actions : List Action} (executed : Transitions.exec (step r serviceId create) {} actions = some g)
    (source target : Int) :
    workflowLinkCallCount g source target = actions.countP (callsLink g source target) ∧
    (∀ n, Records g n source target →
      ∃ last, g.linkCallCounts.get (linkKey source target) = some last ∧ Records g last source target ∧ n ≤ last) ∧
    linkCallCount g source target =
      actions.countP (fun a => (recorderOf g a).any fun n => g.linkCallCounts.get (linkKey source target) == some n) ∧
    linkCallCount g source target ≤ workflowLinkCallCount g source target ∧
    (linkCallCount g source target = workflowLinkCallCount g source target ↔
      ∀ a ∈ actions, callsLink g source target a = true →
        ∃ n, recorderOf g a = some n ∧ g.linkCallCounts.get (linkKey source target) = some n) := by
  have counted := run_counted executed empty_paired
  have workflow : workflowLinkCallCount g source target = actions.countP (callsLink g source target) := by
    rw [counted.workflow]
    exact Nat.zero_add _
  have told := counted_told counted source target
  have within : ∀ a ∈ actions,
      ((recorderOf g a).any fun n => g.linkCallCounts.get (linkKey source target) == some n) = true →
        callsLink g source target a = true := by
    intro a _ goes
    obtain ⟨n, found, last⟩ := (Option.any_eq_true ..).mp goes
    have records := counted.paired.told source target n (beq_iff_eq.mp last)
    exact (callsLink_iff counted.paired found source target).mpr records
  obtain ⟨below, equal⟩ := countP_same within
  refine ⟨workflow, ?_, told, by rw [told, workflow]; exact below, ?_⟩
  · intro n records
    obtain ⟨last, found, above⟩ := counted.paired.last n source target records
    exact ⟨last, found, counted.paired.told source target last found, above⟩
  · rw [told, workflow, equal]
    constructor
    · intro all a mem link
      obtain ⟨n, found, last⟩ := (Option.any_eq_true ..).mp (all a mem link)
      exact ⟨n, found, beq_iff_eq.mp last⟩
    · intro all a mem link
      obtain ⟨n, found, last⟩ := all a mem link
      rw [found, last]
      simp

/-- Two links of a split stream lead to one merge, and a call goes to each. -/
def splitMerge : List Action :=
  [.construct ⟨1, "orders", .Input, 1, 0, [], none⟩ false [],
    .construct ⟨2, "parts", .Split, 1, 1, [], none⟩ false [0], .addSplitLink 2, .addSplitLink 2,
    .construct ⟨3, "whole", .Merge, 1, 0, [2, 2], none⟩ false [3, 4], .call 3, .call 4]

theorem link_counts_split : ∃ g,
    Transitions.exec (step orderStreams 1 fun _ _ => (.ok () : Checked Unit)) {} splitMerge = some g ∧
      workflowLinkCallCount g 2 3 = 2 ∧ linkCallCount g 2 3 < 2 := by
  have run : (Transitions.exec (step orderStreams 1 fun _ _ => (.ok () : Checked Unit)) {} splitMerge).map (fun g =>
      (splitMerge.countP (callsLink g 2 3), [Action.call 3, .call 4].map (callsLink g 2 3),
        [Action.call 3, .call 4].map (recorderOf g))) = some (2, [true, true], [some 2, some 3]) := by decide +kernel
  obtain ⟨g, executed, found⟩ := Option.map_eq_some_iff.mp run
  simp only [List.map_cons, List.map_nil, Prod.mk.injEq, List.cons.injEq, and_true] at found
  obtain ⟨two, ⟨left, right⟩, first, second⟩ := found
  obtain ⟨workflow, _, _, below, same⟩ := link_counts executed 2 3
  have other : linkCallCount g 2 3 ≠ workflowLinkCallCount g 2 3 := by
    intro equal
    -- both calls would go to the recorder that is told
    obtain ⟨m, goes, told⟩ := same.mp equal (.call 3) (by simp [splitMerge]) left
    obtain ⟨n, goes', told'⟩ := same.mp equal (.call 4) (by simp [splitMerge]) right
    rw [first] at goes
    rw [second] at goes'
    rw [told, ← goes, ← goes'] at told'
    cases told'
  refine ⟨g, executed, workflow.trans two, ?_⟩
  omega

end StreamGraphs
