import TsServiceLib.Config.ConfigLayers

/-!
The law of the merge. The loop over the overlay defines own properties as long
as it does not meet the accessor `__proto__`; then what stands under a key is
copied from the overlay, merged, or left from the base. A copy is the same tree
only if no object in it is foreign, and a foreign object of the base is merged
with as if it were a mapping. All nodes of the result are new, so that nothing
done to it is seen in the trees it was made of.
-/
namespace ConfigLayers
open ObjectModel

section Merging

/-- What is assigned under a key of the overlay, given what the result has there. -/
def piece (current : Option Value) (value : Value) (free : Nat) : Value :=
  match current with
  | some there => if isRecord there && isRecord value then (deepMerge there value free).1 else (cloneConfigValue value free).1
  | none => (cloneConfigValue value free).1

theorem meetsSetter_ne {key : String} (apart : key ≠ "__proto__") (proto : Value) : meetsSetter key proto = false := by
  induction proto using Value.induct with
  | object node proto entries above _ => simp [meetsSetter, above]
  | array | objectPrototype | builtin => simp [meetsSetter, apart]
  | undefined | null | boolean | number | string | function => rfl

theorem getProperty_plain (node : Nat) (entries : List (String × Value)) (key : String) :
    (∃ value, own entries key = some value ∧ getProperty (.object node .objectPrototype entries) key = value) ∨
      own entries key = none ∧ (key ≠ "__proto__" → isRecord (getProperty (.object node .objectPrototype entries) key) = false) := by
  cases there : own entries key with
  | some value =>
    refine .inl ⟨value, rfl, ?_⟩
    simp only [getProperty, lookup, there, Option.getD_some]
  | none =>
    refine .inr ⟨rfl, ?_⟩
    intro apart
    simp only [getProperty, lookup, there, inherited, fromObjectPrototype, apart, if_false]
    by_cases method : key ∈ objectMethods
    · rw [if_pos method]
      rfl
    · rw [if_neg method]
      rfl

/-- One turn of the loop, at a key that does not meet the accessor. -/
theorem setProperty_plain {node : Nat} {entries : List (String × Value)} {key : String} (value : Value)
    (safe : key = "__proto__" → own entries key ≠ none) :
    setProperty (.object node .objectPrototype entries) key value = .object node .objectPrototype (defineOwn key value entries) := by
  unfold setProperty
  by_cases same : key = "__proto__"
  · have there : (own entries key).isNone = false := by
      cases found : own entries key with
      | none => exact absurd found (safe same)
      | some v => rfl
    simp [there]
  · simp [meetsSetter_ne same]

theorem piece_eq {node : Nat} {entries : List (String × Value)} {key : String} (value : Value) (free : Nat)
    (safe : key = "__proto__" → own entries key ≠ none) :
    (if isRecord (getProperty (.object node .objectPrototype entries) key) && isRecord value then
        deepMerge (getProperty (.object node .objectPrototype entries) key) value free else cloneConfigValue value free).1 =
      piece (own entries key) value free := by
  rcases getProperty_plain node entries key with ⟨there, found, read⟩ | ⟨none', read⟩
  · rw [found, read]
    simp only [piece]
    split <;> rfl
  · have apart : key ≠ "__proto__" := fun same => safe same none'
    rw [none', read apart]
    rfl

/-- Where the overlay has `__proto__` only if the base has it, the loop defines own properties. -/
theorem mergeEntries_own {overlay entries : List (String × Value)} {node : Nat} (distinct : (overlay.map Prod.fst).Nodup)
    (safe : own overlay "__proto__" ≠ none → own entries "__proto__" ≠ none) (free : Nat) :
    ∃ merged, (deepMerge.mergeEntries (.object node .objectPrototype entries) overlay free).1 = .object node .objectPrototype merged ∧
      ∀ key, (own overlay key = none → own merged key = own entries key) ∧
        ∀ value, own overlay key = some value → ∃ at', own merged key = some (piece (own entries key) value at') := by
  induction overlay generalizing entries free with
  | nil =>
    refine ⟨entries, rfl, ?_⟩
    intro key
    exact ⟨fun _ => rfl, fun value found => by cases found⟩
  | cons entry rest ih =>
    obtain ⟨fresh, distinct⟩ := List.nodup_cons.mp distinct
    have gone : own rest entry.1 = none := own_none_iff.2 fresh
    have here : entry.1 = "__proto__" → own entries entry.1 ≠ none := by
      intro same
      rw [same]
      apply safe
      rw [own_cons, if_pos same]
      exact Option.some_ne_none _
    simp only [deepMerge.mergeEntries]
    rw [setProperty_plain _ here, piece_eq entry.2 free here]
    have later : own rest "__proto__" ≠ none →
        own (defineOwn entry.1 (piece (own entries entry.1) entry.2 free) entries) "__proto__" ≠ none := by
      intro there
      rw [own_defineOwn]
      split
      · exact Option.some_ne_none _
      · apply safe
        rw [own_cons]
        split
        · exact Option.some_ne_none _
        · exact there
    obtain ⟨merged, same, law⟩ := ih distinct later
      (if isRecord (getProperty (.object node .objectPrototype entries) entry.1) && isRecord entry.2 then
        deepMerge (getProperty (.object node .objectPrototype entries) entry.1) entry.2 free else cloneConfigValue entry.2 free).2
    refine ⟨merged, same, ?_⟩
    intro key
    obtain ⟨absent, present⟩ := law key
    rw [own_cons]
    by_cases this : entry.1 = key
    · subst this
      rw [if_pos rfl]
      constructor
      · intro wrong
        cases wrong
      intro value found
      cases found
      refine ⟨free, ?_⟩
      rw [absent gone, own_defineOwn, if_pos rfl]
    · have other : key ≠ entry.1 := fun same => this same.symm
      rw [if_neg this]
      rw [own_defineOwn, if_neg other] at absent present
      exact ⟨absent, present⟩

/-- Where the base does not have `__proto__`, the result never has it. -/
theorem mergeEntries_unsafe {overlay entries : List (String × Value)} (node : Nat) {proto : Value}
    (distinct : (overlay.map Prod.fst).Nodup) (missing : own entries "__proto__" = none)
    (accessor : proto = .objectPrototype ∨ own overlay "__proto__" = none) (free : Nat) :
    ∃ above merged, (deepMerge.mergeEntries (.object node proto entries) overlay free).1 = .object node above merged ∧
      own merged "__proto__" = none := by
  induction overlay generalizing entries proto free with
  | nil => exact ⟨proto, entries, rfl, missing⟩
  | cons entry rest ih =>
    obtain ⟨fresh, distinct⟩ := List.nodup_cons.mp distinct
    have gone : own rest entry.1 = none := own_none_iff.2 fresh
    simp only [deepMerge.mergeEntries]
    by_cases same : entry.1 = "__proto__"
    · have inherits : proto = .objectPrototype := by
        rcases accessor with inherits | none'
        · exact inherits
        · rw [own_cons, if_pos same] at none'
          cases none'
      subst inherits
      rw [same] at gone ⊢
      unfold setProperty
      simp only [missing, Option.isNone_none, meetsSetter, decide_true, Bool.and_self, if_true]
      exact ih distinct missing (.inr gone) _
    · have assigned : ∀ value, setProperty (.object node proto entries) entry.1 value = .object node proto (defineOwn entry.1 value entries) := by
        intro value
        simp [setProperty, meetsSetter_ne same]
      rw [assigned]
      refine ih distinct ?_ ?_ _
      · rw [own_defineOwn, if_neg (Ne.symm same)]
        exact missing
      · rcases accessor with inherits | none'
        · exact .inl inherits
        · rw [own_cons, if_neg same] at none'
          exact .inr none'

end Merging

section Law

/-- The law of the merged tree along a path: its keys are those of both, and under a
    key stands what the overlay has there, the merge where both have a mapping, or
    what the base has. Below a mapping of the overlay that meets none the base does
    not count any more. -/
def Obeys (base overlay : RecordTree) (result : Tree) : List String → Prop
  | [] => ∃ entries, result = .object entries ∧
      ∀ key, (own entries key).isSome = ((own base key).isSome || (own overlay key).isSome)
  | key :: rest => ∃ entries, result = .object entries ∧
      match own overlay key, own base key with
      | none, there => own entries key = there
      | some (.object upper), some (.object under) => ∃ merged, own entries key = some merged ∧ Obeys under upper merged rest
      | some (.object upper), _ => ∃ merged, own entries key = some merged ∧ Obeys [] upper merged rest
      | some value, _ => own entries key = some value

/-- Along a path of mappings that are merged: the overlay has `__proto__` only where
    the base has it, and what is taken from one of the two has no foreign objects.
    A mapping of the overlay over a foreign object has all properties of that. -/
def Ordinary (base overlay : RecordTree) : List String → Prop
  | [] => own overlay "__proto__" ≠ none → own base "__proto__" ≠ none
  | key :: rest =>
    match own overlay key, own base key with
    | none, none => True
    | none, some under => regular under = true
    | some (.object upper), some (.object under) => Ordinary under upper rest
    | some (.object upper), some (.foreign _ _ bytes) =>
      regular (.object upper) = true ∧ own upper "__proto__" = none ∧ ∀ k, own bytes k ≠ none → own upper k ≠ none
    | some value, _ => regular value = true

variable {node : Nat} {entries overlay origin : List (String × Value)} {proto : Value}

theorem deepMerge_object (base : Value) (free : Nat) : deepMerge base (.object node proto overlay) free =
    deepMerge.mergeEntries (copyOf base free).1 overlay (copyOf base free).2 := by
  rw [deepMerge]

theorem deepMerge_own (node : Nat) (proto base : Value) (distinct : (overlay.map Prod.fst).Nodup)
    (safe : own overlay "__proto__" ≠ none → own (entriesOf base) "__proto__" ≠ none) (free : Nat) :
    ∃ made merged, (deepMerge base (.object node proto overlay) free).1 = .object made .objectPrototype merged ∧
      ∀ key, (own overlay key = none →
          (own merged key).map tree = (own (entriesOf base) key).map fun value => copied (tree value)) ∧
        ∀ value, own overlay key = some value →
          ∃ current at', own merged key = some (piece current value at') ∧
            (current = none ∧ own (entriesOf base) key = none ∨
              ∃ under from', own (entriesOf base) key = some under ∧ current = some (cloneConfigValue under from').1) := by
  rw [deepMerge_object]
  simp only [copyOf]
  have safe' : own overlay "__proto__" ≠ none →
      own (cloneConfigValue.cloneEntries (entriesOf base) free).1 "__proto__" ≠ none := by
    intro there
    rcases own_copies (entriesOf base) free "__proto__" with ⟨-, none'⟩ | ⟨value, at', -, copied⟩
    · exact absurd none' (safe there)
    · rw [copied]
      exact Option.some_ne_none _
  obtain ⟨merged, same, law⟩ :=
    @mergeEntries_own overlay _ (cloneConfigValue.cloneEntries (entriesOf base) free).2 distinct safe' _
  refine ⟨_, merged, same, ?_⟩
  intro key
  obtain ⟨absent, present⟩ := law key
  constructor
  · intro none'
    rw [absent none', ← own_treeEntries, treeEntries_copies, own_copiedEntries, own_treeEntries, Option.map_map]
    rfl
  · intro value there
    obtain ⟨at', found⟩ := present value there
    refine ⟨_, at', found, ?_⟩
    rcases own_copies (entriesOf base) free key with ⟨gone, none'⟩ | ⟨under, from', known, copied⟩
    · exact .inl ⟨gone, none'⟩
    · exact .inr ⟨under, from', known, copied⟩

/-- What a merge reads of its base: a copy of the mapping, whatever the copies before it. -/
def Alike (base : Value) (origin : List (String × Value)) : Prop :=
  copied.copiedEntries (tree.treeEntries (entriesOf base)) = copied.copiedEntries (tree.treeEntries origin)

theorem own_alike {base : Value} (alike : Alike base origin) (key : String) :
    ((own (entriesOf base) key).map fun value => copied (tree value)) = (own origin key).map fun value => copied (tree value) := by
  have same := congrArg (fun entries => own entries key) alike
  simpa only [own_copiedEntries, own_treeEntries, Option.map_map, Function.comp_def] using same

theorem own_alike_none {base : Value} (alike : Alike base origin) {key : String} :
    own (entriesOf base) key = none ↔ own origin key = none := by
  have same := own_alike alike key
  rw [← Option.map_eq_none_iff, same, Option.map_eq_none_iff]

theorem record_copied {a b : Value} (same : copied (tree a) = copied (tree b)) : isRecord a = true ↔ isRecord b = true := by
  rw [← copied_object_iff, ← copied_object_iff, same]

theorem alike_copy {under origin' : Value} (from' : Nat) (same : copied (tree under) = copied (tree origin'))
    (record : isRecord origin' = true) : Alike (cloneConfigValue under from').1 (entriesOf origin') := by
  have known : isRecord (cloneConfigValue under from').1 = true := by
    rw [cloneConfigValue_isRecord]
    exact (record_copied same).2 record
  have twice : copied (tree (cloneConfigValue under from').1) = copied (tree origin') := by
    rw [cloneConfigValue_tree, copied_twice, same]
  rw [copied_record known, copied_record record] at twice
  injection twice

theorem tree_piece {current : Option Value} {value : Value} (free : Nat)
    (apart : ∀ there, current = some there → isRecord value = true → isRecord there = false) :
    tree (piece current value free) = copied (tree value) := by
  unfold piece
  cases current with
  | none => exact cloneConfigValue_tree value free
  | some there =>
    have none' : (isRecord there && isRecord value) = false := by
      by_cases record : isRecord value = true
      · simp [apart there rfl record]
      · simp [record]
    simp only [none', Bool.false_eq_true, if_false]
    exact cloneConfigValue_tree value free

/-- What stands under the keys of a merge, as trees. -/
structure Turn (origin overlay : List (String × Value)) (result : RecordTree) : Prop where
  absent : ∀ {key}, own overlay key = none → own result key = (own origin key).map fun value => copied (tree value)
  replaced : ∀ {key value}, own overlay key = some value →
    (∀ under, own origin key = some under → isRecord value = true → isRecord under = false) →
    own result key = some (copied (tree value))
  merged : ∀ {key value under}, own overlay key = some value → own origin key = some under → isRecord value = true →
    isRecord under = true → ∃ current at', own result key = some (tree (deepMerge current value at').1) ∧
      Alike current (entriesOf under)

theorem deepMerge_turn (node : Nat) (proto base : Value) (alike : Alike base origin) (distinct : (overlay.map Prod.fst).Nodup)
    (safe : own overlay "__proto__" ≠ none → own origin "__proto__" ≠ none) (free : Nat) :
    ∃ result, tree (deepMerge base (.object node proto overlay) free).1 = .object result ∧ Turn origin overlay result := by
  have safe' : own overlay "__proto__" ≠ none → own (entriesOf base) "__proto__" ≠ none :=
    fun there missing => safe there ((own_alike_none alike).1 missing)
  obtain ⟨made, merged, same, law⟩ := deepMerge_own node proto base distinct safe' free
  refine ⟨tree.treeEntries merged, by rw [same, tree_mapping], ?_, ?_, ?_⟩
  · intro key none'
    rw [own_treeEntries, (law key).1 none', own_alike alike]
  · intro key value there apart
    obtain ⟨current, at', found, source⟩ := (law key).2 value there
    rw [own_treeEntries, found, Option.map_some, tree_piece at']
    intro known given record
    rcases source with ⟨none', -⟩ | ⟨under, from', base', cloned⟩
    · rw [none'] at given
      cases given
    · rw [cloned] at given
      cases given
      have like := own_alike alike key
      rw [base', Option.map_some] at like
      obtain ⟨under', known', copies⟩ := Option.map_eq_some_iff.mp like.symm
      have plainUnder := apart under' known' record
      rw [cloneConfigValue_isRecord]
      by_contra isOne
      have isOne' := (record_copied copies.symm).1 (by simpa using isOne)
      rw [plainUnder] at isOne'
      cases isOne'
  · intro key value under there known record record'
    obtain ⟨current, at', found, source⟩ := (law key).2 value there
    have like := own_alike alike key
    rw [known, Option.map_some] at like
    obtain ⟨under', base', copies⟩ := Option.map_eq_some_iff.mp like
    rcases source with ⟨-, none'⟩ | ⟨under'', from', base'', cloned⟩
    · rw [none'] at base'
      cases base'
    · rw [base''] at base'
      obtain rfl := Option.some.inj base'
      have kept : isRecord (cloneConfigValue under'' from').1 = true := by
        rw [cloneConfigValue_isRecord]
        exact (record_copied copies).2 record'
      refine ⟨_, at', ?_, alike_copy from' copies record'⟩
      rw [own_treeEntries, found, cloned, Option.map_some]
      simp [piece, kept, record]

theorem safe_of_key {base : Value} (alike : Alike base origin) (distinct : (overlay.map Prod.fst).Nodup) (free : Nat)
    (there : ∃ result, tree (deepMerge base (.object node proto overlay) free).1 = .object result ∧
      (own overlay "__proto__" ≠ none → own result "__proto__" ≠ none)) :
    own overlay "__proto__" ≠ none → own origin "__proto__" ≠ none := by
  intro given missing
  have absent : own (cloneConfigValue.cloneEntries (entriesOf base) free).1 "__proto__" = none := by
    rcases own_copies (entriesOf base) free "__proto__" with ⟨none', -⟩ | ⟨value, -, found, -⟩
    · exact none'
    · rw [(own_alike_none alike).2 missing] at found
      cases found
  obtain ⟨above, merged, same, gone⟩ := mergeEntries_unsafe (cloneConfigValue.cloneEntries (entriesOf base) free).2
    distinct absent (.inl rfl) ((cloneConfigValue.cloneEntries (entriesOf base) free).2 + 1)
  obtain ⟨result, mapping, keys⟩ := there
  rw [deepMerge_object] at mapping
  simp only [copyOf] at mapping
  rw [same] at mapping
  have entries' : result = tree.treeEntries merged := by
    cases above <;> simp [tree] at mapping <;> exact mapping.symm
  apply keys given
  rw [entries', own_treeEntries, gone, Option.map_none]

/-- What the two trees have under a key, as the law and its condition tell it apart. -/
inductive Meets (base overlay : RecordTree) (key : String) : Prop where
  | nothing (absent : own overlay key = none) (missing : own base key = none)
  | kept (under : Tree) (absent : own overlay key = none) (known : own base key = some under)
  | merged (upper under : RecordTree) (there : own overlay key = some (.object upper)) (known : own base key = some (.object under))
  | overForeign (upper : RecordTree) (name : String) (members : List Tree) (bytes : RecordTree)
      (there : own overlay key = some (.object upper)) (known : own base key = some (.foreign name members bytes))
  | placed (upper : RecordTree) (there : own overlay key = some (.object upper))
      (apart : ∀ under, own base key = some under → (∀ entries, under ≠ .object entries) ∧ ∀ n m b, under ≠ .foreign n m b)
  | replaced (value : Tree) (there : own overlay key = some value) (apart : ∀ entries, value ≠ .object entries)

theorem meets (base overlay : RecordTree) (key : String) : Meets base overlay key := by
  cases there : own overlay key with
  | none =>
    cases known : own base key with
    | none => exact .nothing there known
    | some under => exact .kept under there known
  | some value =>
    by_cases mapping : ∃ upper, value = .object upper
    · obtain ⟨upper, rfl⟩ := mapping
      cases known : own base key with
      | none => exact .placed upper there fun under found => by simp [known] at found
      | some under =>
        cases under with
        | object lower => exact .merged upper lower there known
        | foreign name members bytes => exact .overForeign upper name members bytes there known
        | _ =>
          refine .placed upper there fun under found => ?_
          rw [known] at found
          cases found
          exact ⟨nofun, nofun⟩
    · exact .replaced value there fun entries same => mapping ⟨entries, same⟩

section Cases
variable {base upper result : RecordTree} {key : String} {rest : List String}

theorem obeys_absent (absent : own upper key = none) : Obeys base upper (.object result) (key :: rest) ↔ own result key = own base key := by
  simp only [Obeys, absent, Tree.object.injEq, exists_eq_left']

theorem obeys_merged {under above : RecordTree} (value : own upper key = some (.object above))
    (there : own base key = some (.object under)) :
    Obeys base upper (.object result) (key :: rest) ↔ ∃ merged, own result key = some merged ∧ Obeys under above merged rest := by
  simp only [Obeys, value, there, Tree.object.injEq, exists_eq_left']

theorem obeys_placed {above : RecordTree} (value : own upper key = some (.object above))
    (apart : ∀ under, own base key ≠ some (.object under)) :
    Obeys base upper (.object result) (key :: rest) ↔ ∃ merged, own result key = some merged ∧ Obeys [] above merged rest := by
  simp only [Obeys, value, Tree.object.injEq, exists_eq_left']

theorem obeys_replaced {value : Tree} (found : own upper key = some value) (apart : ∀ entries, value ≠ .object entries) :
    Obeys base upper (.object result) (key :: rest) ↔ own result key = some value := by
  simp only [Obeys, Tree.object.injEq, exists_eq_left', found]
  cases value with
  | object entries => exact absurd rfl (apart entries)
  | _ => rfl

theorem ordinary_kept {under : Tree} (absent : own upper key = none) (known : own base key = some under) :
    Ordinary base upper (key :: rest) ↔ regular under = true := by
  simp only [Ordinary, absent, known]

theorem ordinary_merged {under above : RecordTree} (value : own upper key = some (.object above))
    (there : own base key = some (.object under)) : Ordinary base upper (key :: rest) ↔ Ordinary under above rest := by
  simp only [Ordinary, value, there]

theorem ordinary_overForeign {above bytes : RecordTree} {name : String} {members : List Tree}
    (value : own upper key = some (.object above)) (there : own base key = some (.foreign name members bytes)) :
    Ordinary base upper (key :: rest) ↔
      regular (.object above) = true ∧ own above "__proto__" = none ∧ ∀ k, own bytes k ≠ none → own above k ≠ none := by
  simp only [Ordinary, value, there]

theorem ordinary_placed {above : RecordTree} (value : own upper key = some (.object above))
    (apart : ∀ under, own base key = some under → (∀ entries, under ≠ .object entries) ∧ ∀ n m b, under ≠ .foreign n m b) :
    Ordinary base upper (key :: rest) ↔ regular (.object above) = true := by
  simp only [Ordinary, value]
  cases known : own base key with
  | none => rfl
  | some under =>
    cases under with
    | object entries => exact absurd rfl ((apart _ known).1 entries)
    | foreign name members bytes => exact absurd rfl ((apart _ known).2 name members bytes)
    | _ => rfl

theorem ordinary_replaced {value : Tree} (found : own upper key = some value) (apart : ∀ entries, value ≠ .object entries) :
    Ordinary base upper (key :: rest) ↔ regular value = true := by
  simp only [Ordinary, found]
  cases value with
  | object entries => exact absurd rfl (apart entries)
  | _ => rfl

end Cases

/-- A mapping that meets none obeys the law with whatever has the same under every key. -/
theorem obeys_like {upper result : RecordTree} (same : ∀ key, own result key = own upper key) (path : List String) :
    Obeys [] upper (.object result) path := by
  induction path generalizing upper result with
  | nil =>
    refine ⟨result, rfl, fun key => ?_⟩
    rw [same key]
    rfl
  | cons key rest ih =>
    have found := same key
    cases meets [] upper key with
    | nothing absent missing => rw [obeys_absent absent, found, absent, missing]
    | kept under absent known => simp [own] at known
    | merged upper under there known => simp [own] at known
    | overForeign upper name members bytes there known => simp [own] at known
    | placed above there _ =>
      rw [obeys_placed there (by simp [own]), found, there]
      exact ⟨_, rfl, ih fun _ => rfl⟩
    | replaced value there apart => rw [obeys_replaced there apart, found, there]

theorem regularEntries_iff {entries : RecordTree} :
    regular.regularEntries entries = true ↔ ∀ entry ∈ entries, regular entry.2 = true := by
  induction entries with
  | nil => simp [regular.regularEntries]
  | cons entry rest ih =>
    obtain ⟨key, value⟩ := entry
    rw [regular.regularEntries, Bool.and_eq_true, ih, List.forall_mem_cons]

theorem mem_treeEntries {entries : List (String × Value)} {entry : String × Tree} (member : entry ∈ tree.treeEntries entries) :
    ∃ value, (entry.1, value) ∈ entries ∧ entry.2 = tree value := by
  induction entries with
  | nil => cases member
  | cons first rest ih =>
    rw [tree.treeEntries] at member
    rcases List.mem_cons.mp member with rfl | member
    · exact ⟨first.2, List.mem_cons_self, rfl⟩
    · obtain ⟨value, there, same⟩ := ih member
      exact ⟨value, List.mem_cons_of_mem _ there, same⟩

theorem own_of_mem {entries : List (String × Value)} (distinct : (entries.map Prod.fst).Nodup) {key : String} {value : Value}
    (member : (key, value) ∈ entries) : own entries key = some value := by
  induction entries with
  | nil => cases member
  | cons first rest ih =>
    obtain ⟨fresh, distinct⟩ := List.nodup_cons.mp distinct
    rw [own_cons]
    rcases List.mem_cons.mp member with rfl | member
    · exact if_pos rfl
    · rw [if_neg, ih distinct member]
      intro same
      exact fresh (same ▸ List.mem_map_of_mem (f := Prod.fst) member)

theorem regular_of_obeys {value : Value} (plain : Plain value) {upper result : RecordTree} {key : String}
    (there : own upper key = some (tree value)) (found : own result key = some (copied (tree value)))
    (obeys : ∀ rest, Obeys [] upper (.object result) (key :: rest)) : regular (tree value) = true := by
  have whole : (∀ entries, tree value ≠ .object entries) → regular (tree value) = true := by
    intro apart
    have same := (obeys_replaced there apart).1 (obeys [])
    rw [found] at same
    exact (copied_eq_iff _).1 (Option.some.inj same)
  induction plain generalizing upper result key with
  | object node entries distinct below ih =>
    rw [tree_mapping] at there found ⊢
    rw [regular, regularEntries_iff]
    intro entry member
    obtain ⟨value, inside, same⟩ := mem_treeEntries member
    have own' := own_of_mem distinct inside
    rw [same]
    have deeper : ∀ rest, Obeys [] (tree.treeEntries entries) (.object (copied.copiedEntries (tree.treeEntries entries)))
        (entry.1 :: rest) := by
      intro rest
      obtain ⟨merged, at', law⟩ := (obeys_placed there (by simp [own])).1 (obeys (entry.1 :: rest))
      rw [found] at at'
      cases at'
      exact law
    have own'' : own (tree.treeEntries entries) entry.1 = some (tree value) := by rw [own_treeEntries, own']; rfl
    have copy : own (copied.copiedEntries (tree.treeEntries entries)) entry.1 = some (copied (tree value)) := by
      rw [own_copiedEntries, own'']
      rfl
    refine ih _ inside own'' copy deeper ?_
    intro apart
    have same := (obeys_replaced own'' apart).1 (deeper [])
    rw [copy] at same
    exact (copied_eq_iff _).1 (Option.some.inj same)
  | foreign => exact whole (by simp [tree])
  | undefined | null | boolean | number | string | array => exact whole (by simp [tree])

theorem plain_object {value : Value} (plain : Plain value) {upper : RecordTree} (mapping : tree value = .object upper) :
    ∃ node entries, value = .object node .objectPrototype entries ∧ upper = tree.treeEntries entries ∧
      (entries.map Prod.fst).Nodup ∧ ∀ entry ∈ entries, Plain entry.2 := by
  cases plain with
  | object node entries distinct below =>
    rw [tree_mapping] at mapping
    cases mapping
    exact ⟨node, entries, rfl, rfl, distinct, below⟩
  | foreign => simp [tree] at mapping
  | undefined | null | boolean | number | string | array => simp [tree] at mapping

theorem plain_foreign {value : Value} (plain : Plain value) {name : String} {members : List Tree} {bytes : RecordTree}
    (foreign : tree value = .foreign name members bytes) :
    ∃ entries, entriesOf value = entries ∧ isRecord value = true ∧ bytes = tree.treeEntries entries ∧
      (entries.map Prod.fst).Nodup ∧ ∀ entry ∈ entries, (arrayIndex entry.1).isSome = true ∧ ∃ byte, entry.2 = .number byte := by
  cases plain with
  | foreign node name methods members entries distinct bytes =>
    simp only [tree, Tree.foreign.injEq] at foreign
    exact ⟨entries, rfl, rfl, foreign.2.2.symm, distinct, bytes⟩
  | object => simp [tree] at foreign
  | undefined | null | boolean | number | string | array => simp [tree] at foreign

theorem foreign_object {value : Value} (plain : Plain value) {name : String} {members : List Tree} {bytes : RecordTree}
    (foreign : tree value = .foreign name members bytes) :
    ∃ entries node proto, value = .object node proto entries ∧
      (∀ entry ∈ entries, (arrayIndex entry.1).isSome = true ∧ ∃ byte, entry.2 = .number byte) ∧ (entries.map Prod.fst).Nodup := by
  cases plain with
  | foreign node name methods members entries distinct bytes => exact ⟨entries, node, _, rfl, bytes, distinct⟩
  | object => simp [tree] at foreign
  | undefined | null | boolean | number | string | array => simp [tree] at foreign

theorem plain_record {value : Value} (plain : Plain value) (record : isRecord value = true) :
    (∃ upper, tree value = .object upper) ∨ ∃ name members bytes, tree value = .foreign name members bytes := by
  cases plain with
  | object node entries => exact .inl ⟨_, tree_mapping node entries⟩
  | foreign node name methods members entries => exact .inr ⟨name, tree.treeItems members, tree.treeEntries entries, by simp [tree]⟩
  | undefined | null | boolean | number | string | array => cases record

theorem own_plain {entries : List (String × Value)} (below : ∀ entry ∈ entries, Plain entry.2) {key : String} {value : Tree}
    (there : own (tree.treeEntries entries) key = some value) : ∃ v, own entries key = some v ∧ tree v = value ∧ Plain v := by
  rw [own_treeEntries, Option.map_eq_some_iff] at there
  obtain ⟨v, found, same⟩ := there
  obtain ⟨entry, member, here⟩ := own_mem found
  exact ⟨v, found, same, here ▸ below entry member⟩

theorem own_tree_none {key : String} : own (tree.treeEntries entries) key = none ↔ own entries key = none := by
  rw [own_treeEntries, Option.map_eq_none_iff]

theorem isSome_tree (key : String) : (own (tree.treeEntries entries) key).isSome = (own entries key).isSome := by
  rw [own_treeEntries, Option.isSome_map]

theorem ordinary_here (ordinary : Ordinary (tree.treeEntries origin) (tree.treeEntries overlay) []) :
    own overlay "__proto__" ≠ none → own origin "__proto__" ≠ none := by
  intro there missing
  exact ordinary (fun none' => there (own_tree_none.1 none')) (own_tree_none.2 missing)

theorem turn_isSome {result : RecordTree} (turn : Turn origin overlay result) {key : String} {value : Value}
    (there : own overlay key = some value) : (own result key).isSome = true := by
  by_cases both : ∃ under, own origin key = some under ∧ isRecord value = true ∧ isRecord under = true
  · obtain ⟨under, known, record, record'⟩ := both
    obtain ⟨current, at', found, -⟩ := turn.merged there known record record'
    rw [found]
    rfl
  · rw [turn.replaced there]
    · rfl
    · intro under known record
      by_contra record'
      exact both ⟨under, known, record, by simpa using record'⟩

theorem turn_overForeign {bytes : List (String × Value)} {result : RecordTree} (turn : Turn bytes overlay result)
    (numbers : ∀ entry ∈ bytes, (arrayIndex entry.1).isSome = true ∧ ∃ byte, entry.2 = .number byte) {key : String} {value : Value}
    (there : own overlay key = some value) : own result key = some (copied (tree value)) := by
  refine turn.replaced there ?_
  intro under known _
  obtain ⟨entry, member, same⟩ := own_mem known
  obtain ⟨-, byte, number⟩ := numbers entry member
  rw [← same, number]
  rfl

theorem arrayIndex_proto : arrayIndex "__proto__" = none := by
  unfold arrayIndex
  cases "__proto__".toNat? with
  | none => rfl
  | some n =>
    refine if_neg fun canonical => ?_
    have text : (toString n).toList = Nat.toDigits 10 n := String.toList_ofList
    have mem : '_' ∈ Nat.toDigits 10 n := by
      rw [← text, canonical.1]
      decide
    exact absurd (Nat.isDigit_of_mem_toDigits (by decide) (by decide) mem) (by decide)

theorem bytes_safe {bytes : List (String × Value)}
    (numbers : ∀ entry ∈ bytes, (arrayIndex entry.1).isSome = true ∧ ∃ byte, entry.2 = .number byte) :
    own bytes "__proto__" = none := by
  rw [own_none_iff]
  intro member
  obtain ⟨entry, inside, same⟩ := List.mem_map.mp member
  have index := (numbers entry inside).1
  rw [same] at index
  rw [arrayIndex_proto] at index
  cases index

/-- What is no tree of a record is the tree of none. -/
theorem apart_record (plainBase : ∀ entry ∈ origin, Plain entry.2) {key : String}
    (apart : ∀ under, own (tree.treeEntries origin) key = some under →
      (∀ lower, under ≠ .object lower) ∧ ∀ name members bytes, under ≠ .foreign name members bytes) {under : Value}
    (known : own origin key = some under) : isRecord under = false := by
  obtain ⟨entry, member, is⟩ := own_mem known
  have plainUnder : Plain under := is ▸ plainBase entry member
  have known' : own (tree.treeEntries origin) key = some (tree under) := by
    rw [own_treeEntries, known]
    rfl
  by_contra record
  rcases plain_record plainUnder (by simpa using record) with ⟨lower, mapping⟩ | ⟨name, members, bytes, foreign⟩
  · exact (apart _ known').1 lower mapping
  · exact (apart _ known').2 name members bytes foreign

theorem ordinary_obeys (base : Value) (alike : Alike base origin) (plainBase : ∀ entry ∈ origin, Plain entry.2)
    (plain : ∀ entry ∈ overlay, Plain entry.2) (distinct : (overlay.map Prod.fst).Nodup) (free : Nat)
    (ordinary : ∀ path, Ordinary (tree.treeEntries origin) (tree.treeEntries overlay) path) (path : List String) :
    Obeys (tree.treeEntries origin) (tree.treeEntries overlay)
      (tree (deepMerge base (.object node .objectPrototype overlay) free).1) path := by
  induction path generalizing origin base node overlay free with
  | nil =>
    obtain ⟨result, same, turn⟩ := deepMerge_turn node .objectPrototype base alike distinct (ordinary_here (ordinary [])) free
    refine ⟨result, same, ?_⟩
    intro key
    rw [isSome_tree, isSome_tree]
    cases there : own overlay key with
    | none => simp [turn.absent there]
    | some value =>
      have found : (own result key).isSome = true := turn_isSome turn there
      simp [found]
  | cons key rest ih =>
    obtain ⟨result, same, turn⟩ := deepMerge_turn node .objectPrototype base alike distinct (ordinary_here (ordinary [])) free
    have here := ordinary (key :: rest)
    rw [same]
    cases meets (tree.treeEntries origin) (tree.treeEntries overlay) key with
    | nothing absent missing =>
      rw [obeys_absent absent, turn.absent (own_tree_none.1 absent), own_tree_none.1 missing, missing]
      rfl
    | kept under absent known =>
      have unchanged := (copied_eq_iff under).2 ((ordinary_kept absent known).1 here)
      obtain ⟨value, found, rfl, -⟩ := own_plain plainBase known
      rw [obeys_absent absent, turn.absent (own_tree_none.1 absent), known, found, Option.map_some, unchanged]
    | replaced value there apart =>
      have unchanged := (copied_eq_iff value).2 ((ordinary_replaced there apart).1 here)
      obtain ⟨v, found, rfl, plainValue⟩ := own_plain plain there
      rw [obeys_replaced there apart, turn.replaced found, unchanged]
      intro under _ record
      -- a record would be a mapping or foreign, and the copy of neither is the same
      rcases plain_record plainValue record with ⟨upper, mapping⟩ | ⟨name, members, bytes, foreign⟩
      · exact absurd mapping (apart upper)
      · rw [foreign] at unchanged
        cases unchanged
    | placed upper there apart =>
      have unchanged := (copied_eq_iff _).2 ((ordinary_placed there apart).1 here)
      obtain ⟨v, found, mapping, -⟩ := own_plain plain there
      rw [obeys_placed there fun under known => (apart _ known).1 under rfl, turn.replaced found, mapping, unchanged]
      · exact ⟨_, rfl, obeys_like (fun _ => rfl) rest⟩
      · exact fun under known _ => apart_record plainBase apart known
    | overForeign upper name members bytes there known =>
      obtain ⟨whole, noProto, covers⟩ := (ordinary_overForeign there known).1 here
      obtain ⟨v, found, mapping, plainValue⟩ := own_plain plain there
      obtain ⟨u, foundUnder, foreign, plainUnder⟩ := own_plain plainBase known
      obtain ⟨node', entries', rfl, rfl, distinct', -⟩ := plain_object plainValue mapping
      obtain ⟨bytes', sameBytes, recordUnder, rfl, -, numbers⟩ := plain_foreign plainUnder foreign
      obtain ⟨current, at', made, alike'⟩ := turn.merged found foundUnder rfl recordUnder
      rw [sameBytes] at alike'
      have safe : own entries' "__proto__" ≠ none → own bytes' "__proto__" ≠ none :=
        fun given => absurd (own_tree_none.1 noProto) given
      obtain ⟨below, same', turn'⟩ := deepMerge_turn node' .objectPrototype current alike' distinct' safe at'
      rw [obeys_placed there (by simp [known]), made, same']
      refine ⟨_, rfl, obeys_like ?_ rest⟩
      intro k
      have unchanged := (copied_eq_iff _).2 whole
      rw [copied, Tree.object.injEq] at unchanged
      cases deeper : own entries' k with
      | none =>
        have missing : own bytes' k = none := by
          by_contra has
          exact covers k (fun none' => has (own_tree_none.1 none')) (own_tree_none.2 deeper)
        rw [turn'.absent deeper, missing, own_treeEntries, deeper]
        rfl
      | some w =>
        rw [turn_overForeign turn' numbers deeper, ← unchanged, own_copiedEntries, own_treeEntries, deeper]
        rfl
    | merged upper under there known =>
      obtain ⟨v, found, mapping, plainValue⟩ := own_plain plain there
      obtain ⟨u, foundUnder, mapping', plainUnder⟩ := own_plain plainBase known
      obtain ⟨node', entries', rfl, rfl, distinct', below'⟩ := plain_object plainValue mapping
      obtain ⟨_, under', rfl, rfl, -, belowUnder⟩ := plain_object plainUnder mapping'
      obtain ⟨current, at', made, alike'⟩ := turn.merged found foundUnder rfl rfl
      rw [obeys_merged there known, made]
      exact ⟨_, rfl, ih current alike' belowUnder below' distinct' at' fun deeper =>
        (ordinary_merged there known).1 (ordinary (key :: deeper))⟩

theorem obeys_safe {base : Value} (alike : Alike base origin) (distinct : (overlay.map Prod.fst).Nodup) (free : Nat)
    {lower : RecordTree} (obeys : Obeys lower (tree.treeEntries overlay) (tree (deepMerge base (.object node proto overlay) free).1) []) :
    own overlay "__proto__" ≠ none → own origin "__proto__" ≠ none := by
  obtain ⟨result, same, keys⟩ := obeys
  refine safe_of_key alike distinct free ⟨result, same, fun given missing => ?_⟩
  have both := keys "__proto__"
  rw [isSome_tree, missing, Option.isSome_none, Option.isSome_iff_ne_none.mpr given, Bool.or_true] at both
  cases both

theorem regular_of_copies {result : RecordTree} (plain : ∀ entry ∈ overlay, Plain entry.2) (distinct : (overlay.map Prod.fst).Nodup)
    (copies : ∀ key value, own overlay key = some value → own result key = some (copied (tree value)))
    (obeys : ∀ path, Obeys [] (tree.treeEntries overlay) (.object result) path) :
    regular (.object (tree.treeEntries overlay)) = true := by
  rw [regular, regularEntries_iff]
  intro entry member
  obtain ⟨value, inside, same⟩ := mem_treeEntries member
  have here := own_of_mem distinct inside
  rw [same]
  refine regular_of_obeys (plain _ inside)  ?_ (copies entry.1 value here) fun rest =>
    obeys (entry.1 :: rest)
  rw [own_treeEntries, here]
  rfl

theorem obeys_ordinary (base : Value) (alike : Alike base origin) (plainBase : ∀ entry ∈ origin, Plain entry.2)
    (plain : ∀ entry ∈ overlay, Plain entry.2) (distinct : (overlay.map Prod.fst).Nodup) (free : Nat)
    (obeys : ∀ path, Obeys (tree.treeEntries origin) (tree.treeEntries overlay)
      (tree (deepMerge base (.object node .objectPrototype overlay) free).1) path) (path : List String) :
    Ordinary (tree.treeEntries origin) (tree.treeEntries overlay) path := by
  have safe := obeys_safe alike distinct free (obeys [])
  obtain ⟨result, same, turn⟩ := deepMerge_turn node .objectPrototype base alike distinct safe free
  rw [same] at obeys
  induction path generalizing origin base node overlay free result with
  | nil =>
    intro there missing
    exact safe (fun none' => there (own_tree_none.2 none')) (own_tree_none.1 missing)
  | cons key rest ih =>
    cases meets (tree.treeEntries origin) (tree.treeEntries overlay) key with
    | nothing absent missing => simp only [Ordinary, absent, missing]
    | kept under absent known =>
      have law := (obeys_absent absent).1 (obeys [key])
      obtain ⟨value, found, rfl, -⟩ := own_plain plainBase known
      rw [turn.absent (own_tree_none.1 absent), found, known] at law
      exact (ordinary_kept absent known).2 ((copied_eq_iff _).1 (Option.some.inj law))
    | replaced value there apart =>
      have law := (obeys_replaced there apart).1 (obeys [key])
      obtain ⟨v, found, rfl, plainValue⟩ := own_plain plain there
      apply (ordinary_replaced there apart).2
      by_cases both : ∃ under, own origin key = some under ∧ isRecord v = true ∧ isRecord under = true
      · -- two records give a mapping, which the value is not
        obtain ⟨under, known, record, record'⟩ := both
        obtain ⟨current, at', made, alike'⟩ := turn.merged found known record record'
        rcases plain_record plainValue record with ⟨upper, mapping⟩ | ⟨name, members, bytes, foreign⟩
        · exact absurd mapping (apart upper)
        · obtain ⟨entries', node', proto', rfl, numbers, distinct'⟩ := foreign_object plainValue foreign
          obtain ⟨below, same', -⟩ := deepMerge_turn node' proto' current alike' distinct'
            (fun given => absurd (bytes_safe numbers) given) at'
          rw [made, same', foreign] at law
          cases law
      · rw [turn.replaced found fun under known record => by
          by_contra record'
          exact both ⟨under, known, record, by simpa using record'⟩] at law
        exact (copied_eq_iff _).1 (Option.some.inj law)
    | placed upper there apart =>
      obtain ⟨v, found, mapping, plainValue⟩ := own_plain plain there
      obtain ⟨node', entries', rfl, rfl, distinct', below'⟩ := plain_object plainValue mapping
      have copy : own result key = some (copied (tree (.object node' .objectPrototype entries'))) :=
        turn.replaced found fun under known _ => apart_record plainBase apart known
      apply (ordinary_placed there apart).2
      rw [mapping, copied] at copy
      refine @regular_of_copies _ (copied.copiedEntries (tree.treeEntries entries')) below' distinct' ?_ ?_
      · intro k w deeper
        rw [own_copiedEntries, own_treeEntries, deeper]
        rfl
      · intro deeper
        obtain ⟨merged, at', law⟩ := (obeys_placed there fun under known => (apart _ known).1 under rfl).1 (obeys (key :: deeper))
        rw [copy] at at'
        cases at'
        exact law
    | overForeign upper name members bytes there known =>
      obtain ⟨v, found, mapping, plainValue⟩ := own_plain plain there
      obtain ⟨u, foundUnder, foreign, plainUnder⟩ := own_plain plainBase known
      obtain ⟨node', entries', rfl, rfl, distinct', below'⟩ := plain_object plainValue mapping
      obtain ⟨bytes', sameBytes, recordUnder, rfl, -, numbers⟩ := plain_foreign plainUnder foreign
      obtain ⟨current, at', made, alike'⟩ := turn.merged found foundUnder rfl recordUnder
      rw [sameBytes] at alike'
      have law : ∀ deeper, Obeys [] (tree.treeEntries entries')
          (tree (deepMerge current (.object node' .objectPrototype entries') at').1) deeper := by
        intro deeper
        obtain ⟨merged, here, law⟩ := (obeys_placed there (by simp [known])).1 (obeys (key :: deeper))
        rw [made] at here
        cases here
        exact law
      have safe' := obeys_safe alike' distinct' at' (law [])
      obtain ⟨below, same', turn'⟩ := deepMerge_turn node' .objectPrototype current alike' distinct' safe' at'
      rw [same'] at law
      refine (ordinary_overForeign there known).2 ⟨?_, ?_, ?_⟩
      · exact regular_of_copies below' distinct' (fun k w deeper => turn_overForeign turn' numbers deeper) law
      · by_contra given
        exact safe' (fun none' => given (own_tree_none.2 none')) (bytes_safe numbers)
      · intro k has missing
        obtain ⟨shown, union, keys⟩ := law []
        cases union
        have both := keys k
        rw [missing] at both
        cases foundByte : own bytes' k with
        | none => exact has (own_tree_none.2 foundByte)
        | some byte =>
          rw [turn'.absent (own_tree_none.1 missing), foundByte] at both
          simp [own] at both
    | merged upper under there known =>
      obtain ⟨v, found, mapping, plainValue⟩ := own_plain plain there
      obtain ⟨u, foundUnder, mapping', plainUnder⟩ := own_plain plainBase known
      obtain ⟨node', entries', rfl, rfl, distinct', below'⟩ := plain_object plainValue mapping
      obtain ⟨_, under', rfl, rfl, -, belowUnder⟩ := plain_object plainUnder mapping'
      obtain ⟨current, at', made, alike'⟩ := turn.merged found foundUnder rfl rfl
      have law : ∀ deeper, Obeys (tree.treeEntries under') (tree.treeEntries entries')
          (tree (deepMerge current (.object node' .objectPrototype entries') at').1) deeper := by
        intro deeper
        obtain ⟨merged, here, law⟩ := (obeys_merged there known).1 (obeys (key :: deeper))
        rw [made] at here
        cases here
        exact law
      have safe' := obeys_safe alike' distinct' at' (law [])
      obtain ⟨below, same', turn'⟩ := deepMerge_turn node' .objectPrototype current alike' distinct' safe' at'
      rw [same'] at law
      rw [ordinary_merged there known]
      exact ih current alike' belowUnder below' distinct' at' safe' below law same' turn'

end Law

section Unchanged

/-- Every node of the value has at least this number. -/
def Above (value : Value) (bound : Nat) : Prop := ∀ node ∈ nodes value, bound ≤ node

theorem apply_above {change : Change} {root : Value} {bound : Nat} (above : Above root bound) (given : Above change.value bound) :
    Above (change.apply root) bound := by
  intro node member
  unfold Change.apply at member
  split at member
  · rcases mem_nodes_mutate member with member | member
    · exact above node member
    · exact given node member
  · exact above node member

theorem descend_above {path segments : List String} {current found : Value} {bound : Nat} (above : Above current bound)
    (descended : descend path current segments = .ok found) : Above found bound := by
  induction segments generalizing current with
  | nil =>
    cases descended
    exact above
  | cons segment rest ih =>
    unfold descend at descended
    split at descended
    · refine ih ?_ descended
      intro node member
      exact above node (mem_nodes_getProperty member)
    · cases descended

theorem setPath_above {root value : Value} {path : List String} {change : Change} {bound : Nat} (above : Above root bound)
    (made : setPath root path value = .ok change) : change.value = value ∧ ∀ target, change.target = some target → bound ≤ target := by
  unfold setPath at made
  split at made
  · cases made
  · rename_i leaf _
    cases descended : descend path root path.dropLast with
    | error e =>
      rw [descended] at made
      cases made
    | ok current =>
      rw [descended] at made
      change (if (lookup current leaf).isSome = true then Except.ok _ else Except.error _) = _ at made
      split at made
      · cases made
        refine ⟨rfl, ?_⟩
        intro target known
        have inside := descend_above above descended
        cases current with
        | object node proto entries =>
          cases known
          exact inside _ (mem_nodes_object.2 (.inl rfl))
        | array node items =>
          cases known
          exact inside _ (mem_nodes_array.2 (.inl rfl))
        | undefined | null | boolean | number | string | function | objectPrototype | builtin => cases known
      · cases made

theorem applyEnvironment_above {environment : String → Option String} {patches : List EnvironmentPatch} {root : Value}
    {free bound : Nat} (above : Above root bound) (later : bound ≤ free) :
    ∀ change ∈ (applyEnvironment environment root patches free).1, ∀ target, change.target = some target → bound ≤ target := by
  induction patches generalizing root free with
  | nil => simp [applyEnvironment]
  | cons patch rest ih =>
    unfold applyEnvironment
    split
    · exact ih above later
    · rename_i raw _
      split
      · simp
      · rename_i made parsed
        have fresh := patch.makes raw free made parsed
        split
        · simp
        · rename_i change set'
          obtain ⟨given, targets⟩ := setPath_above above set'
          have value : Above change.value bound := by
            rw [given]
            intro node member
            exact le_trans later (fresh.numbers node member)
          intro other member
          rcases List.mem_cons.mp member with rfl | member
          · exact targets
          · exact ih (apply_above above value) (le_trans later fresh.counter) other member

theorem unchanged {change : Change} {value : Value} {bound : Nat} (below : ∀ node ∈ nodes value, node < bound)
    (targets : ∀ target, change.target = some target → bound ≤ target) : change.apply value = value := by
  unfold Change.apply
  split
  · rename_i target known
    apply mutate_of_not_mem
    intro member
    have first := below target member
    have second := targets target known
    omega
  · rfl

/-- A number above those of the nodes of a value. -/
def bound (value : Value) : Nat := (nodes value).foldr max 0 + 1

theorem lt_bound {value : Value} {node : Nat} (member : node ∈ nodes value) : node < bound value := by
  have least : ∀ numbers : List Nat, node ∈ numbers → node ≤ numbers.foldr max 0 := by
    intro numbers member
    induction numbers with
    | nil => cases member
    | cons first rest ih =>
      rw [List.foldr_cons]
      rcases List.mem_cons.mp member with rfl | member
      · exact le_max_left _ _
      · exact le_trans (ih member) (le_max_right _ _)
  have small := least _ member
  unfold bound
  omega

/-- The merge of two trees, whose nodes are numbered after theirs. -/
def merge (base overlay : Mapping) : Value × Nat :=
  deepMerge base.value overlay.value (max (bound base.value) (bound overlay.value))

theorem Mapping.distinct (mapping : Mapping) : (mapping.entries.map Prod.fst).Nodup := by
  cases mapping.plain with
  | object _ _ distinct _ => exact distinct

theorem Mapping.below (mapping : Mapping) : ∀ entry ∈ mapping.entries, Plain entry.2 := by
  cases mapping.plain with
  | object _ _ _ below => exact below

/-- The law at every path, and that neither a change to a node of the result nor
    the patches of the environment are seen in the trees it was made of. -/
def Lawful (base overlay : Mapping) : Prop :=
  (∀ path, Obeys (tree.treeEntries base.entries) (tree.treeEntries overlay.entries) (tree (merge base overlay).1) path) ∧
    (∀ change : Change, (∀ target, change.target = some target → target ∈ nodes (merge base overlay).1) →
      change.apply base.value = base.value ∧ change.apply overlay.value = overlay.value) ∧
    ∀ environment patches, ∀ change ∈ (applyEnvironment environment (merge base overlay).1 patches (merge base overlay).2).1,
      change.apply base.value = base.value ∧ change.apply overlay.value = overlay.value

/- Of all pairs of configuration trees: the merge obeys the law at every path, and
   changes to it are not seen in either tree, if and only if the overlay has the
   key `__proto__` only in mappings that are merged with one that has it too, or
   that are copied as a whole, and nothing that is copied from either is or holds
   a foreign object. Over a foreign object of the base a mapping of the overlay
   stands unchanged if it has all properties of the object and no `__proto__`. -/
theorem merge_lawful_iff (base overlay : Mapping) :
    Lawful base overlay ↔ ∀ path, Ordinary (tree.treeEntries base.entries) (tree.treeEntries overlay.entries) path := by
  have fresh := deepMerge_fresh base.value overlay.value (max (bound base.value) (bound overlay.value))
  have first : ∀ node ∈ nodes base.value, node < max (bound base.value) (bound overlay.value) := by
    intro node member
    exact lt_of_lt_of_le (lt_bound member) (le_max_left _ _)
  have second : ∀ node ∈ nodes overlay.value, node < max (bound base.value) (bound overlay.value) := by
    intro node member
    exact lt_of_lt_of_le (lt_bound member) (le_max_right _ _)
  constructor
  · intro lawful
    exact obeys_ordinary base.value rfl base.below overlay.below overlay.distinct _ lawful.1
  · intro ordinary
    refine ⟨ordinary_obeys base.value rfl base.below overlay.below overlay.distinct _ ordinary, ?_, ?_⟩
    · intro change targets
      have above : ∀ target, change.target = some target → max (bound base.value) (bound overlay.value) ≤ target := by
        intro target known
        exact fresh.numbers target (targets target known)
      exact ⟨unchanged first above, unchanged second above⟩
    · intro environment patches change member
      have above := applyEnvironment_above fresh.numbers fresh.counter change member
      exact ⟨unchanged first above, unchanged second above⟩

/-- A document with the key `a`, and an overlay with the key `__proto__`. -/
def document : Mapping := ⟨0, [("a", .null)], .object 0 _ (by decide) (by simpa using Plain.null)⟩

def protoOverlay : Mapping := ⟨1, [("__proto__", .string "b")], .object 1 _ (by decide) (by simpa using Plain.string "b")⟩

theorem proto_lost : own (tree.treeEntries protoOverlay.entries) "__proto__" ≠ none ∧
    (∃ entries, tree (merge document protoOverlay).1 = .object entries ∧ own entries "__proto__" = none) ∧
    ¬Lawful document protoOverlay := by
  have given : own (tree.treeEntries protoOverlay.entries) "__proto__" ≠ none := by
    rw [own_treeEntries]
    decide
  have lost : ∃ entries, tree (merge document protoOverlay).1 = .object entries ∧ own entries "__proto__" = none := by
    exact ⟨_, rfl, by decide⟩
  refine ⟨given, lost, ?_⟩
  intro lawful
  obtain ⟨entries, same, keys⟩ := lawful.1 []
  obtain ⟨entries', same', gone⟩ := lost
  rw [same] at same'
  cases same'
  have both := keys "__proto__"
  rw [gone, Option.isSome_none] at both
  have known : (own (tree.treeEntries protoOverlay.entries) "__proto__").isSome = true := by
    rw [own_treeEntries]
    decide
  simp [known] at both

def dateOverlay : Mapping where
  node := 1
  entries := [("d", .object 2 (.builtin "Date" ["getTime"] [.number (.finite 0)]) [])]
  plain := .object 1 _ (by decide) (by simpa using Plain.foreign 2 "Date" ["getTime"] [.number (.finite 0)] [] (by simp) (by simp))

/- The date becomes a mapping without keys. -/
theorem date_lost : (∃ entries, tree (merge document dateOverlay).1 = .object entries ∧ own entries "d" = some (.object [])) ∧
    ¬Lawful document dateOverlay := by
  have safe : own dateOverlay.entries "__proto__" ≠ none → own document.entries "__proto__" ≠ none :=
    fun given => absurd (by decide) given
  obtain ⟨entries, same, turn⟩ := @deepMerge_turn dateOverlay.entries document.entries dateOverlay.node .objectPrototype
    document.value rfl dateOverlay.distinct safe (max (bound document.value) (bound dateOverlay.value))
  have given : own dateOverlay.entries "d" = some (.object 2 (.builtin "Date" ["getTime"] [.number (.finite 0)]) []) := rfl
  have alone : own document.entries "d" = none := by decide
  have copy : own entries "d" = some (.object []) := by
    rw [turn.replaced given fun under known => by rw [alone] at known; cases known]
    rfl
  refine ⟨⟨entries, same, copy⟩, ?_⟩
  intro lawful
  have date : own (tree.treeEntries dateOverlay.entries) "d" = some (.foreign "Date" [.number (.finite 0)] []) := rfl
  have law := lawful.1 ["d"]
  rw [show tree (merge document dateOverlay).1 = .object entries from same, obeys_replaced date (by simp), copy] at law
  cases law

end Unchanged

end ConfigLayers
