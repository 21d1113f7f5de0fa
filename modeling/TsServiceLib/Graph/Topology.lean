import TsServiceLib.Graph.GraphLaw
import TsServiceLib.Library.Separated
import TsServiceLib.Temporal.HeaderText

/-!
The edges of the graph and the check of the topology. The links are exactly the
edges, in order; the check passes exactly if the streams that the service has to
hold are registered with a link from each of their sources; and what has passed
passes for good.
-/
namespace StreamGraphs
open ConfigValues ConfigParsers RuntimeConfigs OrderedMaps Effects

def Named (g : Graph) : Prop :=
  ∀ id o, g.streams.get id = some o → ∃ object, g.objects[o]? = some object ∧ object.id = id

/-- A stream has the target among its consumers. -/
def Leads (g : Graph) (object : StreamObject) (target : Int) : Prop :=
  match object.listing with
  | .untyped => False
  | .own => (g.outputs[object.output]?).bind Output.consumer = some target
  | .links outputs => ∃ k ∈ outputs, (g.outputs[k]?).bind Output.consumer = some target
  | .whens streams => ∃ w ∈ streams, (g.objects[w]?).map StreamObject.id = some target

def Edge (g : Graph) (source target : Int) : Prop :=
  ∃ o object, g.streams.get source = some o ∧ g.objects[o]? = some object ∧ Leads g object target

theorem linkKey_injective {a b c d : Int} (same : linkKey a b = linkKey c d) : a = c ∧ b = d := by
  have text : ∀ n : Int, ':' ∉ (toString n).toList := by
    intro n mem
    rw [HeaderTexts.int_text, List.mem_append] at mem
    rcases mem with sign | digit
    · split at sign
      · exact absurd (List.mem_singleton.mp sign) (by decide)
      · cases sign
    · exact absurd (HeaderTexts.digits_all n.natAbs ':' digit) (by decide)
  have back : ∀ m n : Int, (toString m).toList = (toString n).toList → m = n := by
    intro m n chars
    have read := congrArg HeaderTexts.parseBigint (String.toList_injective chars)
    rw [HeaderTexts.parseBigint_text, HeaderTexts.parseBigint_text] at read
    exact Option.some.inj read
  have chars : (toString a).toList ++ ':' :: (toString b).toList = (toString c).toList ++ ':' :: (toString d).toList := by
    have whole := congrArg String.toList same
    simpa [linkKey, String.toList_append] using whole
  obtain ⟨first, second⟩ := Separated.first_cut (text a) (text c) chars
  exact ⟨back a c first, back b d second⟩

section Named
variable {C : Type} {r : RuntimeConfig} {create : Int → Int → Checked C}

/-- Steps keep the names, as far as they keep streams and objects. -/
theorem named_kept {g t : Graph} (named : Named g) (streams : t.streams = g.streams)
    (objects : ∀ (o : Nat) (a : StreamObject), g.objects[o]? = some a → ∃ b, t.objects[o]? = some b ∧ a.Kept b) :
    Named t := by
  intro id o found
  rw [streams] at found
  obtain ⟨a, here, same⟩ := named id o found
  obtain ⟨b, there, kept⟩ := objects o a here
  exact ⟨b, there, kept.id.trans same⟩

theorem registerStream_named (o : Nat) : Moves (fun g t => Named g → Named t) (registerStream o) := by
  intro g named
  rcases registerStream_cases o g with same | ⟨object, found, _, changed⟩
  · rw [same]
    exact named
  · rw [changed]
    intro id n here
    dsimp only at here ⊢
    rw [OrderedMap.get_set] at here
    by_cases own : id = object.id
    · rw [if_pos own] at here
      cases here
      exact ⟨object, found, own.symm⟩
    · rw [if_neg own] at here
      exact named id n here

theorem makeLinkRecorder_named (source target : Int) :
    Moves (fun g t => Named g → Named t) (makeLinkRecorder source target) :=
  fun g named => named_kept named rfl (makeLinkRecorder_extends source target g).object

theorem newOutput_named (output : Output) : Moves (fun g t => Named g → Named t) (newOutput output) :=
  fun g named => named_kept named rfl (newOutput_extends output g).object

theorem newObject_named (object : StreamObject) : Moves (fun g t => Named g → Named t) (newObject object) :=
  fun g named => named_kept named rfl (newObject_extends object g).object

theorem updateObject_named (o : Nat) {change : StreamObject → StreamObject}
    (kept : ∀ a : StreamObject, a.Kept (change a)) :
    Moves (fun g t => Named g → Named t) (updateObject o change) :=
  fun g named => named_kept named rfl (updateObject_extends o kept g).object

theorem recordCall_named (g : Graph) (n : Nat) (named : Named g) : Named (recordCall g n) := by
  have extended := (recordCall_extends g n).object
  have streams : (recordCall g n).streams = g.streams := by
    unfold recordCall
    split
    · rfl
    · rfl
  exact named_kept named streams extended

theorem named_lawful : Lawful r create fun g t => Named g → Named t where
  refl := fun _ named => named
  trans := fun _ _ _ first second named => second (first named)
  output := fun output _ _ => newOutput_named output
  object := fun object _ => newObject_named object
  register := registerStream_named
  error := errorStream_moves (fun _ _ _ first second named => second (first named))
    (fun output _ _ => newOutput_named output) newObject_named registerStream_named makeLinkRecorder_named fun o _ kept => updateObject_named o kept
  update := fun o _ kept _ => updateObject_named o kept
  bind := by
    intro k consumer g named
    have extended := (@setConsumer_extends _ r create k consumer g).object
    apply named_kept named _ extended
    rcases setConsumer_cases r create k consumer g with same | ⟨output, _, _, changed | changed⟩
    · rw [same]
    · rw [changed]
      rfl
    · rw [changed]
      rfl

end Named

theorem leads_extends {g t : Graph} (extended : Extends g t) {a b : StreamObject} (kept : a.Kept b) {target : Int}
    (leads : Leads g a target) : Leads t b target := by
  have consumer : ∀ k : Nat, (g.outputs[k]?).bind Output.consumer = some target →
      (t.outputs[k]?).bind Output.consumer = some target := by
    intro k found
    obtain ⟨before, here, bound⟩ := Option.bind_eq_some_iff.mp found
    obtain ⟨after, there, same⟩ := extended.output k before here
    rw [there]
    exact same.consumer target bound
  have grown := kept.listing
  unfold Leads at leads ⊢
  cases first : a.listing with
  | untyped =>
    rw [first] at leads
    exact leads.elim
  | own =>
    rw [first] at leads grown
    cases second : b.listing <;> rw [second] at grown <;> simp only [Listing.Grown] at grown
    rw [kept.output]
    exact consumer _ leads
  | links outputs =>
    rw [first] at leads grown
    obtain ⟨k, mem, found⟩ := leads
    cases second : b.listing <;> rw [second] at grown <;> simp only [Listing.Grown] at grown
    exact ⟨k, grown.subset mem, consumer k found⟩
  | whens streams =>
    rw [first] at leads grown
    obtain ⟨w, mem, found⟩ := leads
    obtain ⟨branch, here, named⟩ := Option.map_eq_some_iff.mp found
    obtain ⟨later, there, same⟩ := extended.object w branch here
    cases second : b.listing <;> rw [second] at grown <;> simp only [Listing.Grown] at grown
    refine ⟨w, grown.subset mem, ?_⟩
    rw [there, Option.map_some, same.id, named]

theorem edge_extends {g t : Graph} (extended : Extends g t) {source target : Int} (edge : Edge g source target) :
    Edge t source target := by
  obtain ⟨o, object, registered, found, leads⟩ := edge
  obtain ⟨later, there, kept⟩ := extended.object o object found
  exact ⟨o, later, extended.stream source o registered, there, leads_extends extended kept leads⟩

section Links
variable {A B E : Type}

theorem mapM_ok {f : A → Except E B} {items : List A} {out : List B} (done : items.mapM f = .ok out) (b : B) :
    b ∈ out ↔ ∃ a ∈ items, f a = .ok b := by
  induction items generalizing out with
  | nil =>
    rw [List.mapM_nil] at done
    cases done
    simp
  | cons a rest ih =>
    rw [List.mapM_cons, Framing.bind_ok] at done
    obtain ⟨first, here, done⟩ := done
    obtain ⟨later, tail, done⟩ := Framing.bind_ok.mp done
    cases done
    rw [List.mem_cons, ih tail]
    constructor
    · rintro (rfl | ⟨x, mem, found⟩)
      · exact ⟨a, List.mem_cons_self, here⟩
      · exact ⟨x, List.mem_cons_of_mem a mem, found⟩
    · rintro ⟨x, mem, found⟩
      rcases List.mem_cons.mp mem with rfl | further
      · left
        rw [here] at found
        exact (Except.ok.inj found).symm
      · exact Or.inr ⟨x, further, found⟩

theorem mapM_each {f : A → Except E B} {items : List A} {out : List B} (done : items.mapM f = .ok out) {a : A}
    (mem : a ∈ items) : ∃ b, f a = .ok b := by
  induction items generalizing out with
  | nil => cases mem
  | cons first rest ih =>
    rw [List.mapM_cons, Framing.bind_ok] at done
    obtain ⟨b, here, done⟩ := done
    obtain ⟨later, tail, _⟩ := Framing.bind_ok.mp done
    rcases List.mem_cons.mp mem with rfl | further
    · exact ⟨b, here⟩
    · exact ih tail further

theorem linkConsumer_ok {g : Graph} {name : String} {index k : Nat} {target : Int} :
    linkConsumer g name index k = .ok target ↔ (g.outputs[k]?).bind Output.consumer = some target := by
  unfold linkConsumer
  split
  · rename_i consumer found
    rw [found]
    simp
  · rename_i missing
    rw [missing]
    simp [fails]

theorem consumers_leads {g : Graph} {object : StreamObject} {targets : List Int} (listed : consumers g object = .ok targets)
    (target : Int) : target ∈ targets ↔ Leads g object target := by
  unfold consumers at listed
  unfold Leads
  cases listing : object.listing with
  | untyped =>
    rw [listing] at listed
    cases listed
    simp
  | own =>
    rw [listing] at listed
    cases listed
    simp
  | links outputs =>
    rw [listing] at listed
    dsimp only at listed ⊢
    rw [mapM_ok listed]
    constructor
    · rintro ⟨⟨k, index⟩, mem, found⟩
      exact ⟨k, (List.mem_zipIdx mem).2.2 ▸ List.getElem_mem _, linkConsumer_ok.mp found⟩
    · rintro ⟨k, mem, found⟩
      obtain ⟨index, bound, rfl⟩ := List.getElem_of_mem mem
      exact ⟨(outputs[index], index), List.mk_mem_zipIdx_iff_getElem?.mpr (by simp [bound]), linkConsumer_ok.mpr found⟩
  | whens streams =>
    rw [listing] at listed
    cases listed
    simp

theorem linkLe_trans (a b c : Int × Int) (first : linkLe a b = true) (second : linkLe b c = true) : linkLe a c = true := by
  simp only [linkLe, Bool.or_eq_true, Bool.and_eq_true, decide_eq_true_eq, beq_iff_eq] at first second ⊢
  omega

theorem linkLe_total (a b : Int × Int) : (linkLe a b || linkLe b a) = true := by
  simp only [linkLe, Bool.or_eq_true, Bool.and_eq_true, decide_eq_true_eq, beq_iff_eq]
  omega

theorem graphLinks_exact {g : Graph} (named : Named g) {links : List (Int × Int)} (listed : graphLinks g = .ok links) :
    links.Pairwise (linkLe · ·) ∧ ∀ source target, (source, target) ∈ links ↔ Edge g source target := by
  unfold graphLinks at listed
  obtain ⟨lists, each, done⟩ := Framing.bind_ok.mp listed
  cases done
  constructor
  · exact List.pairwise_mergeSort linkLe_trans linkLe_total _
  · intro source target
    rw [List.mem_mergeSort, List.mem_flatten]
    constructor
    · rintro ⟨list, mem, among⟩
      obtain ⟨object, found, own⟩ := (mapM_ok each list).mp mem
      obtain ⟨⟨id, o⟩, entry, here⟩ := List.mem_filterMap.mp found
      obtain ⟨targets, leads, done⟩ := Framing.bind_ok.mp own
      cases done
      obtain ⟨last, mem_last, pair⟩ := List.mem_map.mp among
      cases pair
      have registered := (OrderedMap.get_eq_some_iff g.streams id o).mpr entry
      obtain ⟨again, there, same⟩ := named id o registered
      have equal : again = object := Option.some.inj (there.symm.trans here)
      rw [equal] at same
      exact ⟨o, object, same ▸ registered, here, (consumers_leads leads target).mp mem_last⟩
    · rintro ⟨o, object, registered, found, leads⟩
      have entry := (OrderedMap.get_eq_some_iff g.streams source o).mp registered
      have among : object ∈ g.streams.entries.filterMap fun entry => g.objects[entry.2]? :=
        List.mem_filterMap.mpr ⟨(source, o), entry, found⟩
      obtain ⟨again, there, same⟩ := named source o registered
      have equal : again = object := Option.some.inj (there.symm.trans found)
      rw [equal] at same
      obtain ⟨list, here⟩ := mapM_each each among
      refine ⟨list, (mapM_ok each list).mpr ⟨object, among, here⟩, ?_⟩
      obtain ⟨targets, listed, done⟩ := Framing.bind_ok.mp here
      cases done
      rw [same]
      exact List.mem_map.mpr ⟨target, (consumers_leads listed target).mpr leads, rfl⟩

end Links

section Validity
variable {C : Type} {r : RuntimeConfig} {serviceId : Int} {create : Int → Int → Checked C} {g : Graph}

def Held (serviceId : Int) (config : StreamConfig) : Prop :=
  config.type ≠ .Error ∧ (config.idService = 0 ∨ config.idService = serviceId)

theorem validateStream_ok {links : List (Int × Int)} {config : StreamConfig} :
    validateStream serviceId g (links.map fun link => linkKey link.1 link.2) config = .ok () ↔
      (Held serviceId config → g.streams.has config.id = true ∧
        ∀ source ∈ config.idSource :: config.idSources, source ≠ 0 → (source, config.id) ∈ links) := by
  have keyed : ∀ source, (links.map fun link => linkKey link.1 link.2).contains (linkKey source config.id) = true ↔
      (source, config.id) ∈ links := by
    intro source
    rw [List.contains_iff_mem, List.mem_map]
    constructor
    · rintro ⟨⟨a, b⟩, mem, same⟩
      obtain ⟨rfl, rfl⟩ := linkKey_injective same
      exact mem
    · intro mem
      exact ⟨(source, config.id), mem, rfl⟩
  unfold validateStream
  by_cases passed : config.type = .Error ∨ (config.idService ≠ 0 ∧ config.idService ≠ serviceId)
  · rw [if_pos passed]
    refine ⟨fun _ held => ?_, fun _ => rfl⟩
    obtain ⟨typed, service⟩ := held
    rcases passed with error | ⟨some_service, other⟩
    · exact absurd error typed
    · rcases service with none | own
      · exact absurd none some_service
      · exact absurd own other
  · rw [if_neg passed]
    have held : Held serviceId config := by
      rw [not_or, not_and_or, not_not, not_not] at passed
      exact passed
    rw [Framing.bind_ok]
    constructor
    · rintro ⟨_, registered, sources⟩ _
      rw [refuseIf_ok] at registered
      refine ⟨by simpa using registered, ?_⟩
      intro source mem given
      have found := refuseIf_ok.mp (forM_ok.mp sources source mem)
      apply (keyed source).mp
      simpa [given] using found
    · intro all
      obtain ⟨registered, sources⟩ := all held
      refine ⟨(), refuseIf_ok.mpr (by simp [registered]), forM_ok.mpr ?_⟩
      intro source mem
      apply refuseIf_ok.mpr
      by_cases none : source = 0
      · simp [none]
      · rw [(keyed source).mpr (sources source mem none)]
        simp

/-- The check passes exactly if the links can be listed and each stream that the
    service has to hold is there, behind all its sources. -/
theorem validate_ok (named : Named g) : validateRuntimeTopology r serviceId g = .ok () ↔
    (∃ links, graphLinks g = .ok links) ∧ ∀ config ∈ r.config.streams, Held serviceId config →
      g.streams.has config.id = true ∧
        ∀ source ∈ config.idSource :: config.idSources, source ≠ 0 → Edge g source config.id := by
  unfold validateRuntimeTopology
  rw [Framing.bind_ok]
  constructor
  · rintro ⟨links, listed, valid⟩
    refine ⟨⟨links, listed⟩, ?_⟩
    intro config mem held
    obtain ⟨registered, sources⟩ := validateStream_ok.mp (forM_ok.mp valid config mem) held
    refine ⟨registered, fun source among given => ?_⟩
    exact ((graphLinks_exact named listed).2 source config.id).mp (sources source among given)
  · rintro ⟨⟨links, listed⟩, valid⟩
    refine ⟨links, listed, forM_ok.mpr ?_⟩
    intro config mem
    apply validateStream_ok.mpr
    intro held
    obtain ⟨registered, sources⟩ := valid config mem held
    refine ⟨registered, fun source among given => ?_⟩
    exact ((graphLinks_exact named listed).2 source config.id).mpr (sources source among given)

/-- The graphs that constructions can lead to, from an environment without streams. -/
def Reached (r : RuntimeConfig) (serviceId : Int) (create : Int → Int → Checked C) : Graph → Prop :=
  Transitions.Steps (step r serviceId create) Transitions.Any {}

theorem reached_named (reached : Reached r serviceId create g) : Named g := by
  apply run_moves named_lawful recordCall_named reached
  intro id o found
  cases found

end Validity

/- Every graph that constructions can lead to, whichever of them throw, and
   every later one. The links that are told are the edges, in order. Outputs keep
   their consumers and edges stay. The topology is found valid exactly if the
   links can be told and the streams that the service has to hold are registered
   with an edge from each of their sources; then it is found valid in every later
   graph whose links can be told. -/
theorem topology_law {C : Type} {r : RuntimeConfig} {serviceId : Int} {create : Int → Int → Checked C} {g t : Graph}
    (reached : Reached r serviceId create g) (later : Transitions.Steps (step r serviceId create) Transitions.Any g t) :
    (∀ links, graphLinks g = .ok links → links.Pairwise (linkLe · ·) ∧
      ∀ source target, (source, target) ∈ links ↔ Edge g source target) ∧
    (∀ (k : Nat) a consumer, g.outputs[k]? = some a → a.consumer = some consumer →
      ∃ b, t.outputs[k]? = some b ∧ b.consumer = some consumer) ∧
    (∀ source target, Edge g source target → Edge t source target) ∧
    (validateRuntimeTopology r serviceId g = .ok () ↔
      (∃ links, graphLinks g = .ok links) ∧ ∀ config ∈ r.config.streams, Held serviceId config →
        g.streams.has config.id = true ∧
          ∀ source ∈ config.idSource :: config.idSources, source ≠ 0 → Edge g source config.id) ∧
    (validateRuntimeTopology r serviceId g = .ok () → (∃ links, graphLinks t = .ok links) →
      validateRuntimeTopology r serviceId t = .ok ()) := by
  have extended : Extends g t := run_moves (extends_lawful r create) recordCall_extends later
  have named := reached_named reached
  constructor
  · intro links listed
    exact graphLinks_exact named listed
  · constructor
    · intro k a consumer found given
      obtain ⟨b, there, kept⟩ := extended.output k a found
      exact ⟨b, there, kept.consumer consumer given⟩
    · refine ⟨fun source target => edge_extends extended, validate_ok named, ?_⟩
      intro valid listed
      apply (validate_ok (reached_named (Transitions.steps_trans reached later))).mpr
      refine ⟨listed, ?_⟩
      intro config mem held
      obtain ⟨registered, sources⟩ := ((validate_ok named).mp valid).2 config mem held
      constructor
      · obtain ⟨o, found⟩ := (OrderedMap.has_iff g.streams config.id).mp registered
        exact (OrderedMap.has_iff t.streams config.id).mpr ⟨o, extended.stream config.id o found⟩
      · intro source among given
        exact edge_extends extended (sources source among given)

/-- An input and a map behind it, in one service. -/
def orderStreams : RuntimeConfig where
  config :=
    { services := [], dataConnectors := [], endpoints := [], pools := [], links := [], modules := [], types := []
      streams := [⟨1, "orders", .Input, 1, 0, [], none⟩, ⟨2, "priced", .Map, 1, 1, [], none⟩] }
  services := {}
  streams := {}
  connectors := {}
  endpoints := {}
  pools := OrderedMap.empty
  modules := OrderedMap.empty
  types := OrderedMap.empty
  links := OrderedMap.empty

/-- A third stream cannot have the output of the first one as well; the graph keeps its edge. -/
theorem topology_law_orders : ∃ g t, Reached orderStreams 1 (fun _ _ => (.ok () : Checked Unit)) g ∧
    step orderStreams 1 (fun _ _ => (.ok () : Checked Unit)) g (.construct ⟨3, "again", .Map, 1, 1, [], none⟩ false [0]) =
      some t ∧ Edge t 1 2 := by
  obtain ⟨g, executed, edge, t, next⟩ : ∃ g, Transitions.exec (step orderStreams 1 fun _ _ => (.ok () : Checked Unit)) {}
      [.construct ⟨1, "orders", .Input, 1, 0, [], none⟩ false [], .construct ⟨2, "priced", .Map, 1, 1, [], none⟩ false [0]] =
        some g ∧ Edge g 1 2 ∧ ∃ t, step orderStreams 1 (fun _ _ => (.ok () : Checked Unit)) g
          (.construct ⟨3, "again", .Map, 1, 1, [], none⟩ false [0]) = some t :=
    ⟨_, rfl, ⟨0, _, rfl, rfl, rfl⟩, _, rfl⟩
  have later := @Transitions.steps_single _ _ _ Transitions.Any _ _ _ trivial next
  exact ⟨g, t, Transitions.exec_steps executed, next,
    (topology_law (Transitions.exec_steps executed) later).2.2.1 1 2 edge⟩

end StreamGraphs
