import TsServiceLib.Config.ConfigParser
import TsServiceLib.Library.Framing

/-!
The two ways to write the call semantics of a link: an object that names a
group, or a code with fields beside it. What the object says is read first; the
fields beside it are then read again, for the group of a priority task pool even
where they are missing, and of several groups the first is taken.
-/
namespace LinkSemantics
open Numbers ConfigValues ConfigParsers Framing

def groupKey : CallSemanticsGroup → String
  | .functionCall _ => "functionCall"
  | .taskPool _ => "taskPool"
  | .priorityTaskPool _ _ => "priorityTaskPool"
  | .parallelCall => "parallelCall"

/-- The groups that an object selects, in the order in which they are looked for. -/
def selected (entries : RecordValue) : List String :=
  ["functionCall", "taskPool", "priorityTaskPool", "parallelCall"].filter (hasKey entries)

/-- The value is a number that is the given safe integer. -/
def IsInteger (value : Value) (n : Int) : Prop := value = .number (.finite n) ∧ (Number.finite n).isSafeInteger = true

/-- What the value under the key of a group says; a missing `async` means false. -/
def Means (entries : RecordValue) : CallSemanticsGroup → Prop
  | .functionCall async => ∃ config, field entries "functionCall" = .object config ∧
      (field config "async" = .boolean async ∨ field config "async" = .undefined ∧ async = false)
  | .taskPool poolName => ∃ config, field entries "taskPool" = .object config ∧ field config "poolName" = .string poolName
  | .priorityTaskPool poolName priority => ∃ config, field entries "priorityTaskPool" = .object config ∧
      field config "poolName" = .string poolName ∧ IsInteger (field config "priority") priority
  | .parallelCall => ∃ config, field entries "parallelCall" = .object config

/-- The fields of a link that go with the code of a group. -/
def Beside (link : RecordValue) : CallSemanticsGroup → Prop
  | .functionCall async => field link "async" = .boolean async
  | .taskPool poolName => field link "poolName" = .string poolName
  | .priorityTaskPool poolName priority =>
    field link "poolName" = .string poolName ∧ IsInteger (field link "priority") priority
  | .parallelCall => True

def groupCode : CallSemanticsGroup → Number
  | .functionCall _ => .finite 2
  | .taskPool _ => .finite 3
  | .priorityTaskPool _ _ => .finite 4
  | .parallelCall => .finite 5

/-- What the second pass makes of a group that the first has read. -/
def Overridden (link : RecordValue) : CallSemanticsGroup → CallSemanticsGroup → Prop
  | .functionCall async, result =>
    field link "async" = .undefined ∧ result = .functionCall async ∨
      ∃ flag, field link "async" = .boolean flag ∧ result = .functionCall flag
  | .taskPool poolName, result =>
    field link "poolName" = .undefined ∧ result = .taskPool poolName ∨
      ∃ name, field link "poolName" = .string name ∧ result = .taskPool name
  | .priorityTaskPool _ _, result =>
    ∃ name priority, field link "poolName" = .string name ∧ IsInteger (field link "priority") priority ∧
      result = .priorityTaskPool name priority
  | .parallelCall, result => result = .parallelCall

section Checks
variable {value : Value} {path : String}

theorem record_ok_iff {entries : RecordValue} : record value path = .ok entries ↔ value = .object entries := by
  cases value <;> simp [record, fails]

theorem stringValue_ok_iff {text : String} : stringValue value path = .ok text ↔ value = .string text := by
  cases value <;> simp [stringValue, fails]

theorem booleanValue_ok_iff {flag : Bool} : booleanValue value path = .ok flag ↔ value = .boolean flag := by
  cases value <;> simp [booleanValue, fails]

theorem integer_ok_iff {n : Int} : integer value path = .ok n ↔ IsInteger value n := by
  unfold IsInteger
  constructor
  · intro accepted
    cases value with
    | number given =>
      cases given with
      | finite q =>
        change (if (Number.finite q).isSafeInteger then Except.ok q.num else fails _) = _ at accepted
        split at accepted
        · rename_i safe
          cases accepted
          have whole : q.den = 1 := by
            simp only [Number.isSafeInteger, Bool.and_eq_true, decide_eq_true_eq] at safe
            exact safe.1
          rw [Rat.coe_int_num_of_den_eq_one whole]
          exact ⟨rfl, safe⟩
        · cases accepted
      | nan | posInfinity | negInfinity => cases accepted
    | undefined | null | boolean | string | array | object => cases accepted
  · intro given
    obtain ⟨rfl, safe⟩ := given
    change (if (Number.finite n).isSafeInteger then Except.ok (n : ℚ).num else fails _) = _
    rw [if_pos safe, Rat.num_intCast]

theorem optionalBoolean_ok_iff {flag : Option Bool} : optionalBoolean value path = .ok flag ↔
    value = .undefined ∧ flag = none ∨ ∃ given, value = .boolean given ∧ flag = some given := by
  unfold optionalBoolean optionally
  cases value <;> simp [Value.isUndefined, booleanValue, fails, Except.map, eq_comm]

end Checks

section Reading
variable {entries link : RecordValue} {path : String} {semantics : Option CallSemanticsGroup}

theorem head_functionCall (has : hasKey entries "functionCall" = true) :
    (selected entries).head? = some "functionCall" := by
  simp [selected, has]

theorem head_taskPool (no : hasKey entries "functionCall" = false) (has : hasKey entries "taskPool" = true) :
    (selected entries).head? = some "taskPool" := by
  simp [selected, no, has]

theorem head_priorityTaskPool (no : hasKey entries "functionCall" = false) (neither : hasKey entries "taskPool" = false)
    (has : hasKey entries "priorityTaskPool" = true) : (selected entries).head? = some "priorityTaskPool" := by
  simp [selected, no, neither, has]

/-- The group that an object is read as is the first it selects, and what its value says. -/
theorem callSemantics_ok_iff : callSemantics (.object entries) path = .ok semantics ↔
    ∃ group, semantics = some group ∧ (selected entries).head? = some (groupKey group) ∧ Means entries group := by
  change (if hasKey entries "functionCall" then _ else _) = _ ↔ _
  by_cases first : hasKey entries "functionCall" = true
  · rw [if_pos first, head_functionCall first]
    simp only [bind_ok, readField, record_ok_iff, optionalBoolean_ok_iff]
    constructor
    · rintro ⟨config, found, async, value, result⟩
      cases result
      refine ⟨_, rfl, rfl, config, found, ?_⟩
      rcases value with ⟨missing, rfl⟩ | ⟨given, value, rfl⟩
      · exact .inr ⟨missing, rfl⟩
      · exact .inl value
    · rintro ⟨group, rfl, key, meant⟩
      cases group with
      | functionCall async =>
        obtain ⟨config, found, value | ⟨missing, rfl⟩⟩ := meant
        · exact ⟨config, found, some async, .inr ⟨async, value, rfl⟩, rfl⟩
        · exact ⟨config, found, none, .inl ⟨missing, rfl⟩, rfl⟩
      | taskPool | priorityTaskPool | parallelCall => simp [groupKey] at key
  · have first : hasKey entries "functionCall" = false := by simpa using first
    rw [if_neg (by simp [first])]
    change (if hasKey entries "taskPool" then _ else _) = _ ↔ _
    by_cases second : hasKey entries "taskPool" = true
    · rw [if_pos second, head_taskPool first second]
      simp only [bind_ok, readField, record_ok_iff, stringValue_ok_iff]
      constructor
      · rintro ⟨config, found, name, value, result⟩
        cases result
        exact ⟨_, rfl, rfl, config, found, value⟩
      · rintro ⟨group, rfl, key, meant⟩
        cases group with
        | taskPool name =>
          obtain ⟨config, found, value⟩ := meant
          exact ⟨config, found, name, value, rfl⟩
        | functionCall | priorityTaskPool | parallelCall => simp [groupKey] at key
    · have second : hasKey entries "taskPool" = false := by simpa using second
      rw [if_neg (by simp [second])]
      change (if hasKey entries "priorityTaskPool" then _ else _) = _ ↔ _
      by_cases third : hasKey entries "priorityTaskPool" = true
      · rw [if_pos third, head_priorityTaskPool first second third]
        simp only [bind_ok, readField, record_ok_iff, stringValue_ok_iff, integer_ok_iff]
        constructor
        · rintro ⟨config, found, name, value, priority, number, result⟩
          cases result
          exact ⟨_, rfl, rfl, config, found, value, number⟩
        · rintro ⟨group, rfl, key, meant⟩
          cases group with
          | priorityTaskPool name priority =>
            obtain ⟨config, found, value, number⟩ := meant
            exact ⟨config, found, name, value, priority, number, rfl⟩
          | functionCall | taskPool | parallelCall => simp [groupKey] at key
      · have third : hasKey entries "priorityTaskPool" = false := by simpa using third
        rw [if_neg (by simp [third])]
        change (if hasKey entries "parallelCall" then _ else _) = _ ↔ _
        have head : (selected entries).head? = if hasKey entries "parallelCall" then some "parallelCall" else none := by
          simp only [selected, List.filter_cons, List.filter_nil, first, second, third, Bool.false_eq_true, if_false]
          split <;> rfl
        rw [head]
        by_cases fourth : hasKey entries "parallelCall" = true
        · rw [if_pos fourth, if_pos fourth]
          simp only [bind_ok, readField, record_ok_iff]
          constructor
          · rintro ⟨config, found, result⟩
            cases result
            exact ⟨_, rfl, rfl, config, found⟩
          · rintro ⟨group, rfl, key, meant⟩
            cases group with
            | parallelCall =>
              obtain ⟨config, found⟩ := meant
              exact ⟨config, found, rfl⟩
            | functionCall | taskPool | priorityTaskPool => simp [groupKey] at key
        · rw [if_neg fourth, if_neg fourth]
          constructor
          · intro accepted
            cases accepted
          · rintro ⟨group, -, key, -⟩
            cases key

theorem effectiveSemantics_ok_iff {group : CallSemanticsGroup} :
    effectiveSemantics link path (some group) = .ok semantics ↔ ∃ result, semantics = some result ∧ Overridden link group result := by
  cases group with
  | functionCall async =>
    change (if (field link "async").isUndefined then _ else _) = _ ↔ _
    by_cases missing : field link "async" = .undefined
    · rw [if_pos (by rw [missing]; rfl)]
      constructor
      · intro result
        cases result
        exact ⟨_, rfl, .inl ⟨missing, rfl⟩⟩
      · rintro ⟨result, rfl, ⟨-, rfl⟩ | ⟨flag, given, -⟩⟩
        · rfl
        · rw [missing] at given
          cases given
    · have given : (field link "async").isUndefined = false := by
        cases value : field link "async" <;> simp_all [Value.isUndefined]
      rw [if_neg (by simp [given])]
      simp only [bind_ok, readField, booleanValue_ok_iff]
      constructor
      · rintro ⟨flag, value, result⟩
        cases result
        exact ⟨_, rfl, .inr ⟨flag, value, rfl⟩⟩
      · rintro ⟨result, rfl, ⟨undefined, -⟩ | ⟨flag, value, rfl⟩⟩
        · exact absurd undefined missing
        · exact ⟨flag, value, rfl⟩
  | taskPool name =>
    change (if (field link "poolName").isUndefined then _ else _) = _ ↔ _
    by_cases missing : field link "poolName" = .undefined
    · rw [if_pos (by rw [missing]; rfl)]
      constructor
      · intro result
        cases result
        exact ⟨_, rfl, .inl ⟨missing, rfl⟩⟩
      · rintro ⟨result, rfl, ⟨-, rfl⟩ | ⟨text, given, -⟩⟩
        · rfl
        · rw [missing] at given
          cases given
    · have given : (field link "poolName").isUndefined = false := by
        cases value : field link "poolName" <;> simp_all [Value.isUndefined]
      rw [if_neg (by simp [given])]
      simp only [bind_ok, readField, stringValue_ok_iff]
      constructor
      · rintro ⟨text, value, result⟩
        cases result
        exact ⟨_, rfl, .inr ⟨text, value, rfl⟩⟩
      · rintro ⟨result, rfl, ⟨undefined, -⟩ | ⟨text, value, rfl⟩⟩
        · exact absurd undefined missing
        · exact ⟨text, value, rfl⟩
  | priorityTaskPool name priority =>
    simp only [effectiveSemantics, bind_ok, readField, stringValue_ok_iff, integer_ok_iff]
    constructor
    · rintro ⟨text, value, number, given, result⟩
      cases result
      exact ⟨_, rfl, text, number, value, given, rfl⟩
    · rintro ⟨result, rfl, text, number, value, given, rfl⟩
      exact ⟨text, value, number, given, rfl⟩
  | parallelCall =>
    constructor
    · intro result
      cases result
      exact ⟨_, rfl, rfl⟩
    · rintro ⟨result, rfl, rfl⟩
      rfl

end Reading

section Links
variable {entries link : RecordValue} {path : String} {origin target : Int} {semantics : Option CallSemanticsGroup}

/-- The fields beside the object do not change the group. -/
def Compatible (link : RecordValue) : CallSemanticsGroup → Prop
  | .functionCall async => field link "async" = .undefined ∨ field link "async" = .boolean async
  | .taskPool poolName => field link "poolName" = .undefined ∨ field link "poolName" = .string poolName
  | .priorityTaskPool poolName priority =>
    field link "poolName" = .string poolName ∧ IsInteger (field link "priority") priority
  | .parallelCall => True

/-- The fields beside the object pass the checks of the second pass. -/
def Admits (link : RecordValue) : CallSemanticsGroup → Prop
  | .functionCall _ => field link "async" = .undefined ∨ ∃ flag, field link "async" = .boolean flag
  | .taskPool _ => field link "poolName" = .undefined ∨ ∃ name, field link "poolName" = .string name
  | .priorityTaskPool _ _ =>
    (∃ name, field link "poolName" = .string name) ∧ ∃ priority, IsInteger (field link "priority") priority
  | .parallelCall => True

/-- The ends of a link are integers. -/
def Joins (link : RecordValue) (origin target : Int) : Prop :=
  IsInteger (field link "from") origin ∧ IsInteger (field link "to") target

theorem overridden_same_iff {group : CallSemanticsGroup} : Overridden link group group ↔ Compatible link group := by
  cases group with
  | functionCall async => simp [Overridden, Compatible]
  | taskPool name => simp [Overridden, Compatible]
  | priorityTaskPool name priority =>
    simp only [Overridden, Compatible, CallSemanticsGroup.priorityTaskPool.injEq]
    constructor
    · rintro ⟨text, number, value, given, rfl, rfl⟩
      exact ⟨value, given⟩
    · rintro ⟨value, given⟩
      exact ⟨name, priority, value, given, rfl, rfl⟩
  | parallelCall => simp [Overridden, Compatible]

theorem admits_iff {group : CallSemanticsGroup} : (∃ result, Overridden link group result) ↔ Admits link group := by
  cases group with
  | functionCall async =>
    constructor
    · rintro ⟨result, ⟨missing, -⟩ | ⟨flag, given, -⟩⟩
      · exact .inl missing
      · exact .inr ⟨flag, given⟩
    · rintro (missing | ⟨flag, given⟩)
      · exact ⟨_, .inl ⟨missing, rfl⟩⟩
      · exact ⟨_, .inr ⟨flag, given, rfl⟩⟩
  | taskPool name =>
    constructor
    · rintro ⟨result, ⟨missing, -⟩ | ⟨text, given, -⟩⟩
      · exact .inl missing
      · exact .inr ⟨text, given⟩
    · rintro (missing | ⟨text, given⟩)
      · exact ⟨_, .inl ⟨missing, rfl⟩⟩
      · exact ⟨_, .inr ⟨text, given, rfl⟩⟩
  | priorityTaskPool name priority =>
    constructor
    · rintro ⟨result, text, number, value, given, -⟩
      exact ⟨⟨text, value⟩, number, given⟩
    · rintro ⟨⟨text, value⟩, number, given⟩
      exact ⟨_, text, number, value, given, rfl⟩
  | parallelCall => exact ⟨fun _ => trivial, fun _ => ⟨_, rfl⟩⟩

theorem parseLink_ok_iff (joins : Joins link origin target) {parsed : LinkConfig} : parseLink link path = .ok parsed ↔
    ∃ semantics, callSemantics (field link "callSemantics") (path ++ "." ++ "callSemantics") = .ok semantics ∧
      ∃ effective, effectiveSemantics link path semantics = .ok effective ∧ parsed = ⟨origin, target, effective⟩ := by
  have first : readField integer link path "from" = .ok origin := integer_ok_iff.2 joins.1
  have second : readField integer link path "to" = .ok target := integer_ok_iff.2 joins.2
  unfold parseLink
  rw [first, second]
  simp only [bind_ok, readField]
  constructor
  · rintro ⟨semantics, read, effective, result, _, same, _, same', done⟩
    cases same
    cases same'
    cases done
    exact ⟨semantics, read, effective, result, rfl⟩
  · rintro ⟨semantics, read, effective, result, rfl⟩
    exact ⟨semantics, read, effective, result, origin, rfl, target, rfl, rfl⟩

theorem object_ok_iff (path : String) (object : field link "callSemantics" = .object entries) (joins : Joins link origin target)
    {parsed : LinkConfig} : parseLink link path = .ok parsed ↔ ∃ group result,
      (selected entries).head? = some (groupKey group) ∧ Means entries group ∧ Overridden link group result ∧
        parsed = ⟨origin, target, some result⟩ := by
  rw [parseLink_ok_iff joins, object]
  simp only [callSemantics_ok_iff]
  constructor
  · rintro ⟨semantics, ⟨group, rfl, head, meant⟩, effective, second, rfl⟩
    obtain ⟨result, rfl, fits⟩ := effectiveSemantics_ok_iff.1 second
    exact ⟨group, result, head, meant, fits, rfl⟩
  · rintro ⟨group, result, head, meant, fits, rfl⟩
    exact ⟨some group, ⟨group, rfl, head, meant⟩, some result, effectiveSemantics_ok_iff.2 ⟨result, rfl, fits⟩, rfl⟩

theorem means_unique {group other : CallSemanticsGroup} (first : Means entries group) (second : Means entries other)
    (key : groupKey group = groupKey other) : group = other := by
  cases group <;> cases other <;> simp [groupKey] at key
  · obtain ⟨config, found, value⟩ := first
    obtain ⟨config', found', value'⟩ := second
    rw [found] at found'
    cases found'
    rcases value with value | ⟨missing, rfl⟩ <;> rcases value' with value' | ⟨missing', rfl⟩ <;> simp_all
  · obtain ⟨config, found, value⟩ := first
    obtain ⟨config', found', value'⟩ := second
    rw [found] at found'
    cases found'
    rw [value] at value'
    cases value'
    rfl
  · obtain ⟨config, found, value, number, -⟩ := first
    obtain ⟨config', found', value', number', -⟩ := second
    rw [found] at found'
    cases found'
    rw [value] at value'
    cases value'
    rw [number] at number'
    simp only [Value.number.injEq, Number.finite.injEq, Int.cast_inj] at number'
    rw [number']
  · rfl

theorem coded_ok {group : CallSemanticsGroup} (code : field link "callSemantics" = .number (groupCode group))
    (joins : Joins link origin target) (beside : Beside link group) :
    parseLink link path = .ok ⟨origin, target, some group⟩ := by
  rw [parseLink_ok_iff joins, code]
  cases group with
  | functionCall async =>
    refine ⟨some (.functionCall false), by rfl, some (.functionCall async), ?_, rfl⟩
    exact effectiveSemantics_ok_iff.2 ⟨_, rfl, .inr ⟨async, beside, rfl⟩⟩
  | taskPool name =>
    refine ⟨some (.taskPool ""), by rfl, some (.taskPool name), ?_, rfl⟩
    exact effectiveSemantics_ok_iff.2 ⟨_, rfl, .inr ⟨name, beside, rfl⟩⟩
  | priorityTaskPool name priority =>
    refine ⟨some (.priorityTaskPool "" 0), by rfl, some (.priorityTaskPool name priority), ?_, rfl⟩
    exact effectiveSemantics_ok_iff.2 ⟨_, rfl, name, priority, beside.1, beside.2, rfl⟩
  | parallelCall =>
    refine ⟨some .parallelCall, by rfl, some .parallelCall, ?_, rfl⟩
    exact effectiveSemantics_ok_iff.2 ⟨_, rfl, rfl⟩

/-- A link written with an object: where it selects one group it is read as that
    group, and as every link that writes it with a code; where it selects several
    it is rejected. -/
def ReadAlike (link : RecordValue) (path : String) (origin target : Int) (entries : RecordValue) : Prop :=
  (∀ group, selected entries = [groupKey group] → Means entries group →
    parseLink link path = .ok ⟨origin, target, some group⟩ ∧
      ∀ coded, field coded "callSemantics" = .number (groupCode group) → Joins coded origin target → Beside coded group →
        parseLink coded path = parseLink link path) ∧
    (2 ≤ (selected entries).length → ∃ e, parseLink link path = .error e)

/-- What the fields beside the object and, of several groups, the first must be for that. -/
def Suited (link entries : RecordValue) : Prop :=
  (∀ group, selected entries = [groupKey group] → Means entries group → Compatible link group) ∧
    (2 ≤ (selected entries).length →
      ∀ group, (selected entries).head? = some (groupKey group) → Means entries group → ¬Admits link group)

theorem single_iff (path : String) (object : field link "callSemantics" = .object entries) (joins : Joins link origin target)
    {group : CallSemanticsGroup} (single : selected entries = [groupKey group]) (meant : Means entries group) :
    parseLink link path = .ok ⟨origin, target, some group⟩ ↔ Compatible link group := by
  rw [object_ok_iff path object joins, ← overridden_same_iff]
  constructor
  · rintro ⟨read, result, head, meant', fits, same⟩
    cases same
    rw [single] at head
    have key : groupKey group = groupKey read := by simpa using head
    rw [means_unique meant meant' key] at fits ⊢
    exact fits
  · intro fits
    exact ⟨group, group, by rw [single]; rfl, meant, fits, rfl⟩

theorem rejected_iff (object : field link "callSemantics" = .object entries) (joins : Joins link origin target) :
    (∃ e, parseLink link path = .error e) ↔
      ∀ group, (selected entries).head? = some (groupKey group) → Means entries group → ¬Admits link group := by
  have accepted : ∀ parsed, parseLink link path = .ok parsed ↔ _ := fun _ => object_ok_iff path object joins
  constructor
  · intro rejected group head meant admits
    obtain ⟨e, failed⟩ := rejected
    obtain ⟨result, fits⟩ := admits_iff.2 admits
    have passed := (accepted _).2 ⟨group, result, head, meant, fits, rfl⟩
    rw [failed] at passed
    cases passed
  · intro none'
    cases outcome : parseLink link path with
    | error e => exact ⟨e, rfl⟩
    | ok parsed =>
      obtain ⟨group, result, head, meant, fits, -⟩ := (accepted parsed).1 outcome
      exact absurd (admits_iff.1 ⟨result, fits⟩) (none' group head meant)

/- A link written with an object is read as the group that the object selects and
   as the link that writes it with a code, or rejected where the object selects
   several, if and only if the fields beside it are suited. -/
theorem object_link_iff (object : field link "callSemantics" = .object entries) (joins : Joins link origin target) :
    ReadAlike link path origin target entries ↔ Suited link entries := by
  unfold ReadAlike Suited
  rw [rejected_iff object joins]
  refine and_congr_left fun _ => forall_congr' fun group => ?_
  constructor
  · intro alike single meant
    exact (single_iff path object joins single meant).1 (alike single meant).1
  · intro compatible single meant
    have read := (single_iff path object joins single meant).2 (compatible single meant)
    refine ⟨read, ?_⟩
    intro coded code joined beside
    rw [read]
    exact coded_ok code joined beside

/-- A link from 1 to 2 with an object and nothing beside it. -/
def bareLink (entries : RecordValue) : RecordValue :=
  [("from", .number (.finite 1)), ("to", .number (.finite 2)), ("callSemantics", .object entries)]

def priorityObject : RecordValue :=
  [("priorityTaskPool", .object [("poolName", .string "Default Pool"), ("priority", .number (.finite 1))])]

def severalObject : RecordValue :=
  [("functionCall", .object [("async", .boolean true)]), ("taskPool", .object [("poolName", .string "Default Pool")])]

theorem isInteger_literal (n : Int) (small : n.natAbs ≤ 9007199254740991) : IsInteger (.number (.finite n)) n := by
  refine ⟨rfl, ?_⟩
  simp [Number.isSafeInteger, Number.maxSafeInteger, small]

theorem isInteger_one : IsInteger (.number (.finite 1)) 1 := by
  have whole := isInteger_literal 1 (by decide)
  exact_mod_cast whole

theorem bareLink_joins (entries : RecordValue) : Joins (bareLink entries) 1 2 := by
  have whole := isInteger_literal 2 (by decide)
  exact ⟨isInteger_one, by exact_mod_cast whole⟩

/-- The same link with the fields of the pool repeated beside the object. -/
def pooledLink : RecordValue :=
  bareLink priorityObject ++ [("poolName", .string "Default Pool"), ("priority", .number (.finite 1))]

theorem object_link_iff_pooled : ReadAlike pooledLink "links.x" 1 2 priorityObject ∧
    parseLink pooledLink "links.x" = .ok ⟨1, 2, some (.priorityTaskPool "Default Pool" 1)⟩ := by
  have pooled : Means priorityObject (.priorityTaskPool "Default Pool" 1) := ⟨_, rfl, rfl, isInteger_one⟩
  have joins : Joins pooledLink 1 2 := bareLink_joins priorityObject
  have suited : Suited pooledLink priorityObject := by
    constructor
    · intro group single meant
      have key : groupKey (.priorityTaskPool "Default Pool" 1) = groupKey group := List.singleton_inj.mp single
      rw [← means_unique pooled meant key]
      exact ⟨rfl, isInteger_one⟩
    · intro several
      exact absurd several (by decide)
  have alike : ReadAlike pooledLink "links.x" 1 2 priorityObject := (object_link_iff rfl joins).2 suited
  exact ⟨alike, (alike.1 _ rfl pooled).1⟩

theorem objects_differ : parseLink (bareLink priorityObject) "links.x" = .error (.error "links.x.poolName must be a string") ∧
    ¬ReadAlike (bareLink priorityObject) "links.x" 1 2 priorityObject ∧
    parseLink (bareLink severalObject) "links.x" = .ok ⟨1, 2, some (.functionCall true)⟩ ∧
    ¬ReadAlike (bareLink severalObject) "links.x" 1 2 severalObject := by
  have refused : parseLink (bareLink priorityObject) "links.x" = .error (.error "links.x.poolName must be a string") := by
    decide +kernel
  have accepted : parseLink (bareLink severalObject) "links.x" = .ok ⟨1, 2, some (.functionCall true)⟩ := by
    decide +kernel
  refine ⟨refused, ?_, accepted, ?_⟩
  · intro alike
    have read := (alike.1 (.priorityTaskPool "Default Pool" 1) (by decide) ⟨_, rfl, rfl, isInteger_one⟩).1
    rw [refused] at read
    cases read
  · intro alike
    obtain ⟨e, failed⟩ := alike.2 (by decide)
    rw [accepted] at failed
    cases failed

end Links

end LinkSemantics
