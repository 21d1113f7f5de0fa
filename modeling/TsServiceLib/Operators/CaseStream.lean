import TsServiceLib.Library.Number
import TsServiceLib.Serde.SerdeRegistry

/-!
The case operator. Its selector gives a number for a value and the branch with
that number gets it, if the value passes the check of the branch's type. The
default selector asks the registry about every branch and keeps the last that
matches.
-/
namespace CaseStreams
open Numbers SerdeRegistries Framing Serdes

structure WhenStream where
  configName : String
  valueType : String

structure CaseStream where
  name : String
  whenStreams : List WhenStream := []

/-- The getter `name` of the branch with the index. -/
def WhenStream.name (w : WhenStream) (caseStream : CaseStream) (index : Nat) : String :=
  if w.configName.length > 0 then w.configName else caseStream.name ++ "CaseLink" ++ toString index

def CaseStream.names (c : CaseStream) : List String := c.whenStreams.mapIdx fun index w => w.name c index

section Names
variable (stringify : String → String) (name : String)

/-- The loop of `whenIndex` from a candidate on. -/
def whenIndexFrom : List String → Nat → Option Nat → Except Thrown (Option Nat)
  | [], _, index => .ok index
  | item :: rest, candidate, index =>
    if item ≠ name then whenIndexFrom rest (candidate + 1) index
    else
      match index with
      | some i =>
        .error (.error ("case branch " ++ stringify name ++ " is ambiguous (indices " ++ toString i ++ " and " ++
          toString candidate ++ ")"))
      | none => whenIndexFrom rest (candidate + 1) (some candidate)

def whenIndex (items : List String) : Except Thrown Nat :=
  if name.length = 0 then .error (.error "case branch name must not be empty")
  else do
    match ← whenIndexFrom stringify name items 0 none with
    | some index => pure index
    | none => throw (.error ("case branch " ++ stringify name ++ " was not found"))

variable {stringify name}

/-- With an index in hand the rest of the branches must have other names. -/
theorem whenIndexFrom_found {items : List String} {candidate i j : Nat} :
    whenIndexFrom stringify name items candidate (some i) = .ok (some j) ↔ j = i ∧ name ∉ items := by
  induction items generalizing candidate with
  | nil =>
    simp only [whenIndexFrom, Except.ok.injEq, Option.some.injEq, List.not_mem_nil, not_false_eq_true, and_true]
    exact eq_comm
  | cons item rest ih =>
    by_cases same : item = name
    · simp [whenIndexFrom, same]
    · rw [whenIndexFrom, if_pos same, ih, List.mem_cons, not_or]
      exact and_congr_right fun _ => ⟨fun apart => ⟨Ne.symm same, apart⟩, And.right⟩

theorem whenIndexFrom_ok {items : List String} {candidate j : Nat} :
    whenIndexFrom stringify name items candidate none = .ok (some j) ↔
      ∃ before after, items = before ++ name :: after ∧ j = candidate + before.length ∧ name ∉ before ∧ name ∉ after := by
  induction items generalizing candidate with
  | nil => simp [whenIndexFrom]
  | cons item rest ih =>
    by_cases same : item = name
    · subst item
      rw [whenIndexFrom, if_neg (by simp), whenIndexFrom_found]
      constructor
      · rintro ⟨rfl, apart⟩
        exact ⟨[], rest, rfl, rfl, List.not_mem_nil, apart⟩
      · rintro ⟨before, after, split, place, earlier, later⟩
        cases before with
        | nil =>
          cases split
          exact ⟨place, later⟩
        | cons first before =>
          cases split
          exact absurd List.mem_cons_self earlier
    · rw [whenIndexFrom, if_pos same, ih]
      constructor
      · rintro ⟨before, after, rfl, rfl, earlier, later⟩
        refine ⟨item :: before, after, rfl, by simp only [List.length_cons]; omega, ?_, later⟩
        rw [List.mem_cons, not_or]
        exact ⟨Ne.symm same, earlier⟩
      · rintro ⟨before, after, split, place, earlier, later⟩
        cases before with
        | nil =>
          cases split
          exact absurd rfl same
        | cons first before =>
          cases split
          rw [List.length_cons] at place
          exact ⟨before, after, rfl, by omega, fun mem => earlier (List.mem_cons_of_mem _ mem), later⟩

/-- A name is resolved exactly if one branch alone has it. -/
theorem whenIndex_ok {items : List String} {i : Nat} :
    whenIndex stringify name items = .ok i ↔
      name.length ≠ 0 ∧ ∃ before after, items = before ++ name :: after ∧ i = before.length ∧ name ∉ before ∧ name ∉ after := by
  unfold whenIndex
  split
  · rename_i empty
    exact ⟨nofun, fun unique => absurd empty unique.1⟩
  · rename_i given
    have resolved : (∃ j, whenIndexFrom stringify name items 0 none = .ok (some j) ∧ j = i) ↔
        ∃ before after, items = before ++ name :: after ∧ i = before.length ∧ name ∉ before ∧ name ∉ after := by
      constructor
      · rintro ⟨j, found, rfl⟩
        obtain ⟨before, after, split, place, apart⟩ := whenIndexFrom_ok.mp found
        exact ⟨before, after, split, by omega, apart⟩
      · rintro ⟨before, after, split, place, apart⟩
        exact ⟨i, whenIndexFrom_ok.mpr ⟨before, after, split, by omega, apart⟩, rfl⟩
    rw [bind_ok, ← resolved]
    constructor
    · rintro ⟨_ | j, found, same⟩
      · cases same
      · exact ⟨given, j, found, Except.ok.inj same⟩
    · rintro ⟨-, j, found, rfl⟩
      exact ⟨some j, found, rfl⟩

end Names

section Selection
variable {U : Type} (r : SerdeRegistry U) (c : CaseStream)

/-- The loop of the default selector: the last branch that matches so far. -/
def selectFrom (value : U) : List WhenStream → Nat → Option Nat → Except Thrown (Option Nat)
  | [], _, selected => .ok selected
  | w :: rest, index, selected => do
    let matched ← matchesByName r w.valueType value
    selectFrom value rest (index + 1) (if matched then some index else selected)

def requireSelected : Option Nat → Except Thrown Number
  | some index => .ok (.finite index)
  | none => .error (.failure (.typeError ("unknown value type in case switch for stream " ++ c.name)))

/-- The selector that `defaultBuildSwitch` makes. -/
def defaultBuildSwitch (value : U) : Except Thrown Number := do
  let selected ← selectFrom r value c.whenStreams 0 none
  requireSelected c selected

/-- `this.#whenStreams[index]` -/
def branchAt (index : Number) : Option (Nat × WhenStream) :=
  match index with
  | .finite q =>
    if q.den = 1 ∧ 0 ≤ q.num then (c.whenStreams[q.num.toNat]?).map fun w => (q.num.toNat, w) else none
  | _ => none

variable (printNumber : Number → String)

/-- `consumeCase` and `consumeValidated`: the branch that emits the value. An
    error comes before anything has been emitted. -/
def consumeCase (selector : Option (U → Except Thrown Number)) (value : U) : Except Thrown Nat :=
  match selector with
  | none => .error (.error ("CaseStream " ++ c.name ++ " is not built"))
  | some selector => do
    let index ← selector value
    match branchAt c index with
    | none =>
      throw (.failure (.rangeError ("case selector returned branch " ++ printNumber index ++ ", but only " ++
        toString c.whenStreams.length ++ " branches exist")))
    | some (i, branch) =>
      assertByName r branch.valueType value
      pure i

variable {r c printNumber}

theorem branchAt_some {index : Number} {i : Nat} {w : WhenStream} (found : branchAt c index = some (i, w)) :
    c.whenStreams[i]? = some w := by
  unfold branchAt at found
  split at found
  · split at found
    · obtain ⟨branch, got, same⟩ := Option.map_eq_some_iff.mp found
      cases same
      exact got
    · cases found
  · cases found

theorem branchAt_nat (i : Nat) : branchAt c (.finite i) = (c.whenStreams[i]?).map fun w => (i, w) := by
  simp [branchAt]

/-- Whoever selects: the branch that emits is one of the operator's, and the
    value has passed the check of its type. -/
theorem consumeCase_ok {selector : Option (U → Except Thrown Number)} {value : U} {i : Nat}
    (emitted : consumeCase r c printNumber selector value = .ok i) :
    ∃ w, c.whenStreams[i]? = some w ∧ assertByName r w.valueType value = .ok () := by
  unfold consumeCase at emitted
  split at emitted
  · cases emitted
  · obtain ⟨index, -, rest⟩ := bind_ok.mp emitted
    split at rest
    · cases rest
    · rename_i j branch found
      obtain ⟨⟨⟩, checked, same⟩ := bind_ok.mp rest
      cases Except.ok.inj same
      exact ⟨branch, branchAt_some found, checked⟩

theorem selectFrom_ok {value : U} {branches : List WhenStream} {index : Nat} {selected found : Option Nat}
    (done : selectFrom r value branches index selected = .ok found) :
    (found = selected ∧ ∀ w ∈ branches, matchesByName r w.valueType value = .ok false) ∨
      ∃ before w after, branches = before ++ w :: after ∧ found = some (index + before.length) ∧
        matchesByName r w.valueType value = .ok true ∧ ∀ w' ∈ after, matchesByName r w'.valueType value = .ok false := by
  induction branches generalizing index selected with
  | nil => exact .inl ⟨(Except.ok.inj done).symm, fun w mem => absurd mem List.not_mem_nil⟩
  | cons first rest ih =>
    obtain ⟨matched, here, later⟩ := bind_ok.mp done
    rcases ih later with ⟨same, none⟩ | ⟨before, w, after, split, place, yes, no⟩
    · cases matched with
      | true => exact .inr ⟨[], first, rest, rfl, same, here, none⟩
      | false =>
        refine .inl ⟨same, ?_⟩
        intro w mem
        rcases List.mem_cons.mp mem with rfl | inside
        · exact here
        · exact none w inside
    · refine .inr ⟨first :: before, w, after, by rw [split]; rfl, ?_, yes, no⟩
      rw [place, List.length_cons]
      congr 1
      omega

/-- The loop comes to its end where the registry answers for every branch. -/
theorem selectFrom_total {value : U} {branches : List WhenStream}
    (answers : ∀ w ∈ branches, ∃ b, matchesByName r w.valueType value = .ok b) (index : Nat) (selected : Option Nat) :
    ∃ found, selectFrom r value branches index selected = .ok found := by
  induction branches generalizing index selected with
  | nil => exact ⟨selected, rfl⟩
  | cons first rest ih =>
    obtain ⟨b, here⟩ := answers first List.mem_cons_self
    obtain ⟨found, later⟩ := ih (fun w mem => answers w (List.mem_cons_of_mem _ mem)) (index + 1) (if b then some index else selected)
    exact ⟨found, bind_ok.mpr ⟨b, here, later⟩⟩

theorem last_place {α β : Type} {f : α → β} {a b : β} (differ : a ≠ b) {before after before' after' : List α} {x x' : α}
    (same : before ++ x :: after = before' ++ x' :: after') (here : f x = a) (later : ∀ y ∈ after, f y = b)
    (here' : f x' = a) (later' : ∀ y ∈ after', f y = b) : before.length = before'.length := by
  have inside : ∀ {y : α} {l : List α}, f y = a → (∀ z ∈ l, f z = b) → y ∉ l :=
    fun found none mem => differ (found.symm.trans (none _ mem))
  rcases List.append_eq_append_iff.mp same with ⟨extra, rfl, rest⟩ | ⟨extra, rfl, rest⟩
  · cases extra with
    | nil => simp
    | cons z extra =>
      cases rest
      exact absurd (by simp) (inside here' later)
  · cases extra with
    | nil => simp
    | cons z extra =>
      cases rest
      exact absurd (by simp) (inside here later')

/- No selector brings a value to a branch whose check it fails. Where the
   registry answers for every branch, the default switch gives a value to the last
   branch whose type it has, and to none, with the error that says so, if there is
   no such branch. -/
theorem case_routes {value : U} :
    (∀ selector i, consumeCase r c printNumber selector value = .ok i →
      ∃ w, c.whenStreams[i]? = some w ∧ assertByName r w.valueType value = .ok ()) ∧
    ((∀ w ∈ c.whenStreams, ∃ b, matchesByName r w.valueType value = .ok b) →
      (∀ i, consumeCase r c printNumber (some (defaultBuildSwitch r c)) value = .ok i ↔
        ∃ before w after, c.whenStreams = before ++ w :: after ∧ i = before.length ∧
          matchesByName r w.valueType value = .ok true ∧ ∀ w' ∈ after, matchesByName r w'.valueType value = .ok false) ∧
      ((∀ w ∈ c.whenStreams, matchesByName r w.valueType value = .ok false) ↔
        consumeCase r c printNumber (some (defaultBuildSwitch r c)) value =
          .error (.failure (.typeError ("unknown value type in case switch for stream " ++ c.name))))) := by
  refine ⟨fun _ _ => consumeCase_ok, ?_⟩
  intro answers
  obtain ⟨found, done⟩ := selectFrom_total answers 0 none
  have selects : defaultBuildSwitch r c value = requireSelected c found := by
    unfold defaultBuildSwitch
    rw [done]
    rfl
  rcases selectFrom_ok done with ⟨rfl, none⟩ | ⟨before, w, after, split, rfl, yes, no⟩
  · have refused : consumeCase r c printNumber (some (defaultBuildSwitch r c)) value =
        .error (.failure (.typeError ("unknown value type in case switch for stream " ++ c.name))) := by
      unfold consumeCase
      simp only [selects]
      rfl
    refine ⟨?_, fun _ => refused, fun _ => none⟩
    intro i
    rw [refused]
    refine ⟨nofun, ?_⟩
    rintro ⟨before, w, after, split, -, yes, -⟩
    rw [none w (by simp [split])] at yes
    cases yes
  · have branch : c.whenStreams[before.length]? = some w := by
      rw [split]
      simp
    have routed : consumeCase r c printNumber (some (defaultBuildSwitch r c)) value = .ok before.length := by
      unfold consumeCase
      simp only [selects, Nat.zero_add]
      refine bind_ok.mpr ⟨_, rfl, ?_⟩
      rw [branchAt_nat, branch]
      exact bind_ok.mpr ⟨(), assert_of_matchesByName yes, rfl⟩
    refine ⟨?_, ?_⟩
    · intro i
      rw [routed]
      constructor
      · intro same
        exact ⟨before, w, after, split, (Except.ok.inj same).symm, yes, no⟩
      · rintro ⟨before', w', after', split', rfl, yes', no'⟩
        rw [last_place (fun same => Bool.noConfusion (Except.ok.inj same)) (split.symm.trans split') yes no yes' no']
    · rw [routed]
      refine ⟨?_, nofun⟩
      intro none
      rw [none w (by simp [split])] at yes
      cases yes

end Selection

theorem case_routes_bool :
    ∃ r : SerdeRegistry Bool, Reached (fun _ => boolType) r ∧
      consumeCase r ⟨"kind", [⟨"first", "bool"⟩, ⟨"second", "bool"⟩]⟩ (fun _ => "")
        (some (defaultBuildSwitch r ⟨"kind", [⟨"first", "bool"⟩, ⟨"second", "bool"⟩]⟩)) true = .ok 1 := by
  obtain ⟨r, next, matched⟩ : ∃ r : SerdeRegistry Bool,
      step (fun _ => boolType) {} (.register 0 (makeStreamSerde boolSerde)) = some r ∧
      matchesByName r "bool" true = .ok true := ⟨_, rfl, rfl⟩
  refine ⟨r, Transitions.steps_single trivial next, ?_⟩
  have answers : ∀ w ∈ [WhenStream.mk "first" "bool", ⟨"second", "bool"⟩], ∃ b, matchesByName r w.valueType true = .ok b := by
    intro w mem
    simp only [List.mem_cons, List.not_mem_nil, or_false] at mem
    rcases mem with rfl | rfl <;> exact ⟨true, matched⟩
  exact ((case_routes.2 answers).1 1).mpr ⟨[⟨"first", "bool"⟩], ⟨"second", "bool"⟩, [], rfl, rfl, matched, by simp⟩

end CaseStreams
