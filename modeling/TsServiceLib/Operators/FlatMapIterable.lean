import TsServiceLib.Library.Transitions
import TsServiceLib.Serde.StringSerdes

/-!
The operator that emits the items of a value one after the other. The items of a
string are its code points or the bytes of its UTF-8 text, those of an array the
array's own. The loop waits for each emission before it goes on to the next
item, so a value is emitted as far as every emission before went well, and an
array that changes meanwhile is read as it is by then.
-/
namespace FlatMapIterables
open Serdes Unicode

/-- What iterating a string yields, a lone surrogate by itself. -/
def codePoints : List UInt16 → List Nat
  | [] => []
  | [unit] => [unit.toNat]
  | first :: second :: rest =>
    if isHigh first && isLow second then
      (0x10000 + (first.toNat - 0xD800) * 0x400 + (second.toNat - 0xDC00)) :: codePoints rest
    else first.toNat :: codePoints (second :: rest)

inductive Thrown (E : Type) where
  | typeError (message : String)
  | other (error : E)

def stringItems (E : Type) (value : JsString) (valueType : String) : Except (Thrown E) (List Nat) :=
  if valueType = "int32" then .ok (codePoints value.units)
  else if valueType = "uint8" then .ok ((TextEncoder.encode value).map UInt8.toNat)
  else .error (.typeError ("FlatMapIterable string output type must be int32 or uint8, got " ++ valueType))

/-- The values that the operator may get; `other` are those without a length. -/
inductive Input (A : Type) where
  | string (value : JsString)
  | indexed (items : List A)
  | other

inductive Phase (E : Type) where
  | awaiting
  | resolved
  | rejected (error : Thrown E)

inductive Event (A : Type) where
  | emit (item : A)
  | settled

/-- One call of `consume`. Only an array is read live. -/
structure Emitting (A E : Type) where
  items : List A
  live : Bool
  next : Nat := 0
  phase : Phase E := .resolved
  log : List (Event A) := []

section Emission
variable {A E : Type} (check : A → Except E Unit)

/-- The loop from its next item to the emission that it waits for. -/
def goOn (s : Emitting A E) : Emitting A E :=
  match s.items[s.next]? with
  | none => { s with phase := .resolved }
  | some item =>
    match check item with
    | .error e => { s with phase := .rejected (.other e) }
    | .ok () => { s with next := s.next + 1, phase := .awaiting, log := s.log ++ [.emit item] }

inductive Action (A E : Type) where
  | settles (outcome : Except E Unit)
  | changes (items : List A)

def step (s : Emitting A E) : Action A E → Option (Emitting A E)
  | .settles outcome =>
    match s.phase, outcome with
    | .awaiting, .ok () => some (goOn check { s with log := s.log ++ [.settled] })
    | .awaiting, .error e => some { s with phase := .rejected (.other e) }
    | _, _ => none
  | .changes items => if s.live then some { s with items } else none

def enterLoop (items : List A) (live : Bool) : Emitting A E := goOn check { items, live }

end Emission

/-- `emitItems`: what the registry says of the output type is asked for the items
    of strings only. -/
def emitStringItems {E : Type} (check : String → Nat → Except E Unit) (valueType : String) (value : JsString) :
    Emitting Nat E :=
  match stringItems E value valueType with
  | .ok items => enterLoop (check valueType) items false
  | .error e => { items := [], live := false, phase := .rejected e }

def emitIndexed {A E : Type} (items : List A) : Emitting A E := enterLoop (fun _ => .ok ()) items true

def emitItems {A E : Type} (check : String → Nat → Except E Unit) (name valueType : String) :
    Input A → Emitting Nat E ⊕ Emitting A E
  | .string value => .inl (emitStringItems check valueType value)
  | .indexed items => .inr (emitIndexed items)
  | .other =>
    .inr { items := [], live := false,
           phase := .rejected (.typeError ("FlatMapIterable stream " ++ name ++ " requires an array or typed array")) }

section Strings

/-- `String.fromCodePoint` -/
def fromCodePoint (n : Nat) : List UInt16 :=
  if n < 0x10000 then [UInt16.ofNat n]
  else [UInt16.ofNat (0xD800 + (n - 0x10000) / 0x400), UInt16.ofNat (0xDC00 + (n - 0x10000) % 0x400)]

theorem fromCodePoint_unit (unit : UInt16) : fromCodePoint unit.toNat = [unit] := by
  have bound := UInt16.toNat_lt unit
  rw [fromCodePoint, if_pos (by omega), UInt16.ofNat_toNat]

theorem fromCodePoint_pair {first second : UInt16} (high : isHigh first = true) (low : isLow second = true) :
    fromCodePoint (0x10000 + (first.toNat - 0xD800) * 0x400 + (second.toNat - 0xDC00)) = [first, second] := by
  simp only [isHigh, isLow, decide_eq_true_eq] at high low
  have upper : 0xD800 + (0x10000 + (first.toNat - 0xD800) * 0x400 + (second.toNat - 0xDC00) - 0x10000) / 0x400 =
      first.toNat := by omega
  have lower : 0xDC00 + (0x10000 + (first.toNat - 0xD800) * 0x400 + (second.toNat - 0xDC00) - 0x10000) % 0x400 =
      second.toNat := by omega
  rw [fromCodePoint, if_neg (by omega), upper, lower, UInt16.ofNat_toNat, UInt16.ofNat_toNat]

/-- Every string comes back from its code points, also one with lone surrogates. -/
theorem codePoints_back (text : List UInt16) : (codePoints text).flatMap fromCodePoint = text := by
  induction text using codePoints.induct with
  | case1 => rfl
  | case2 unit =>
    rw [codePoints, List.flatMap_cons, List.flatMap_nil, fromCodePoint_unit]
    rfl
  | case3 first second rest pair ih =>
    obtain ⟨high, low⟩ := Bool.and_eq_true_iff.mp pair
    rw [codePoints, if_pos pair, List.flatMap_cons, fromCodePoint_pair high low, ih]
    rfl
  | case4 first second rest unpaired ih =>
    rw [codePoints, if_neg unpaired, List.flatMap_cons, fromCodePoint_unit, ih]
    rfl

end Strings

section Order
variable {A E : Type} {check : A → Except E Unit} {items : List A}

/-- Emissions one after the other, each over before the next. -/
def told (items : List A) : List (Event A) := items.flatMap fun item => [.emit item, .settled]

/-- The items have been emitted in order, up to the one that is waited for or
    that failed; a call that is over has emitted all, or has stopped at an item
    that was refused or whose emission failed. -/
def Progress (check : A → Except E Unit) (items : List A) (s : Emitting A E) : Prop :=
  match s.phase with
  | .awaiting => ∃ item, 0 < s.next ∧ items[s.next - 1]? = some item ∧
      s.log = told (items.take (s.next - 1)) ++ [.emit item]
  | .resolved => s.log = told items
  | .rejected error => ∃ k item, items[k]? = some item ∧
      ((s.log = told (items.take k) ∧ ∃ e, error = .other e ∧ check item = .error e) ∨
        s.log = told (items.take k) ++ [.emit item])

structure InOrder (check : A → Except E Unit) (items : List A) (s : Emitting A E) : Prop where
  same : s.items = items
  progress : Progress check items s
  checked : ∀ item, .emit item ∈ s.log → check item = .ok ()

theorem told_snoc {k : Nat} {item : A} (found : items[k]? = some item) :
    told (items.take (k + 1)) = told (items.take k) ++ [.emit item, .settled] := by
  rw [List.take_add_one, found]
  simp [told]

theorem goOn_inOrder {s : Emitting A E} (same : s.items = items) (told_all : s.log = told (items.take s.next))
    (checked : ∀ item, .emit item ∈ s.log → check item = .ok ()) : InOrder check items (goOn check s) := by
  unfold goOn
  cases found : s.items[s.next]? with
  | none =>
    rw [same] at found
    refine ⟨same, ?_, checked⟩
    have all : items.take s.next = items := List.take_of_length_le (List.getElem?_eq_none_iff.mp found)
    change s.log = told items
    rw [told_all, all]
  | some item =>
    rw [same] at found
    dsimp only
    cases passed : check item with
    | error e =>
      exact ⟨same, ⟨s.next, item, found, Or.inl ⟨told_all, e, rfl, passed⟩⟩, checked⟩
    | ok _ =>
      refine ⟨same, ⟨item, Nat.succ_pos _, found, ?_⟩, ?_⟩
      · change s.log ++ [.emit item] = told (items.take s.next) ++ [.emit item]
        rw [told_all]
      · intro other mem
        rcases List.mem_append.mp mem with before | last
        · exact checked other before
        · cases List.mem_singleton.mp last
          exact passed

/-- The array is left alone while its items are emitted. -/
def Untouched (_ : Emitting A E) : Action A E → Prop
  | .settles _ => True
  | .changes _ => False

theorem step_inOrder {s t : Emitting A E} {a : Action A E} (ordered : InOrder check items s) (untouched : Untouched s a)
    (next : step check s a = some t) : InOrder check items t := by
  cases a with
  | changes items => exact untouched.elim
  | settles outcome =>
    have progress := ordered.progress
    unfold Progress at progress
    simp only [step] at next
    cases at_ : s.phase with
    | resolved => simp [at_] at next
    | rejected e => simp [at_] at next
    | awaiting =>
      rw [at_] at next progress
      obtain ⟨item, positive, found, log⟩ := progress
      cases outcome with
      | error e =>
        cases next
        exact ⟨ordered.same, ⟨s.next - 1, item, found, Or.inr log⟩, ordered.checked⟩
      | ok _ =>
        cases next
        apply goOn_inOrder
        · exact ordered.same
        · have back : s.next - 1 + 1 = s.next := by omega
          have more := told_snoc found
          rw [back] at more
          change s.log ++ [.settled] = told (items.take s.next)
          rw [more, log, List.append_assoc]
          rfl
        · intro other mem
          rcases List.mem_append.mp mem with before | last
          · exact ordered.checked other before
          · cases List.mem_singleton.mp last

theorem run_inOrder {live : Bool} {s : Emitting A E}
    (run : Transitions.Steps (step check) Untouched (enterLoop check items live) s) : InOrder check items s := by
  have start : InOrder check items (enterLoop check items live) := goOn_inOrder rfl rfl fun item mem => by cases mem
  exact Transitions.steps_invariant (InOrder check items)
    (fun _ _ _ ordered untouched next => step_inOrder ordered untouched next) run start

theorem goOn_live (s : Emitting A E) : (goOn check s).live = s.live := by
  unfold goOn
  split
  · rfl
  · split
    · rfl
    · rfl

theorem run_untouched {s t : Emitting A E} (still : s.live = false)
    (run : Transitions.Steps (step check) Transitions.Any s t) :
    Transitions.Steps (step check) Untouched s t ∧ t.live = false := by
  induction run with
  | refl => exact ⟨.refl _, still⟩
  | @tail u t a _ _ next ih =>
    obtain ⟨before, fixed⟩ := ih
    cases a with
    | changes items => simp [step, fixed] at next
    | settles outcome =>
      refine ⟨.tail before (show Untouched u (.settles outcome) from trivial) next, ?_⟩
      simp only [step] at next
      split at next
      · cases next
        rw [goOn_live]
        exact fixed
      · cases next
        exact fixed
      · cases next

theorem run_rejected {s t : Emitting A E} {e : Thrown E} (still : s.live = false) (ended : s.phase = .rejected e)
    (run : Transitions.Steps (step check) Transitions.Any s t) : t = s := by
  induction run with
  | refl => rfl
  | @tail u t a _ _ next ih =>
    cases ih
    cases a with
    | changes items => simp [step, still] at next
    | settles outcome => simp [step, ended] at next

def emitted (s : Emitting A E) : List A :=
  s.log.filterMap fun event =>
    match event with
    | .emit item => some item
    | .settled => none

theorem emitted_told (items : List A) (s : Emitting A E) (all : s.log = told items) : emitted s = items := by
  unfold emitted
  rw [all]
  induction items generalizing s with
  | nil => rfl
  | cons item rest ih =>
    have tail := ih { s with log := told rest } rfl
    simpa [told] using tail

end Order

section Types
variable {E : Type} {value : JsString} {valueType : String} {s : Emitting Nat E} {check : String → Nat → Except E Unit}

theorem string_inOrder {all : List Nat} (made : stringItems E value valueType = .ok all)
    (run : Transitions.Steps (step (check valueType)) Transitions.Any (emitStringItems check valueType value) s) :
    InOrder (check valueType) all s ∧ (s.phase = .resolved → emitted s = all) := by
  unfold emitStringItems at run
  rw [made] at run
  obtain ⟨alone, _⟩ := run_untouched (goOn_live _) run
  have ordered := run_inOrder alone
  refine ⟨ordered, fun done => ?_⟩
  have progress := ordered.progress
  unfold Progress at progress
  rw [done] at progress
  exact emitted_told all s progress

theorem string_refused {e : Thrown E} (made : stringItems E value valueType = .error e)
    (run : Transitions.Steps (step (check valueType)) Transitions.Any (emitStringItems check valueType value) s) :
    s.log = [] ∧ s.phase = .rejected e := by
  unfold emitStringItems at run
  rw [made] at run
  cases run_rejected rfl rfl run
  exact ⟨rfl, rfl⟩

theorem stringItems_int32 : stringItems E value "int32" = .ok (codePoints value.units) := if_pos rfl

theorem stringItems_uint8 : stringItems E value "uint8" = .ok ((TextEncoder.encode value).map UInt8.toNat) := by
  rw [stringItems, if_neg (by decide), if_pos rfl]

theorem stringItems_other (notPoints : valueType ≠ "int32") (notBytes : valueType ≠ "uint8") :
    stringItems E value valueType =
      .error (.typeError ("FlatMapIterable string output type must be int32 or uint8, got " ++ valueType)) := by
  rw [stringItems, if_neg notPoints, if_neg notBytes]

theorem bytes_back (value : JsString) :
    utf8Decode (((TextEncoder.encode value).map UInt8.toNat).map UInt8.ofNat) = some (scalars value.units) := by
  have bytes : ((TextEncoder.encode value).map UInt8.toNat).map UInt8.ofNat = TextEncoder.encode value := by
    rw [List.map_map]
    exact (List.map_congr_left fun byte _ => UInt8.ofNat_toNat).trans (List.map_id _)
  rw [bytes]
  exact utf8Decode_utf8 _

end Types

/- Over every run of one call. A string of another output type than int32 or
   uint8 is refused before anything is emitted. Items are emitted in order, each
   when the one before is over and none that the registry refuses; what is
   emitted is a beginning of the items, and all of them once the call resolves.
   Then the code points give the string back, whatever surrogates it has, and the
   bytes its characters, which are the string exactly if it is well formed. The
   items of an array are emitted in the same order if nobody changes it. -/
theorem items_emitted {A E : Type} (check : String → Nat → Except E Unit) (name valueType : String) (value : JsString)
    (items : List A) :
    (∀ start s, emitItems check name valueType (.string value : Input A) = .inl start →
      Transitions.Steps (step (check valueType)) Transitions.Any start s →
      (valueType ≠ "int32" → valueType ≠ "uint8" → s.log = [] ∧
        s.phase = .rejected (.typeError ("FlatMapIterable string output type must be int32 or uint8, got " ++ valueType))) ∧
      (valueType = "int32" → InOrder (check valueType) (codePoints value.units) s ∧
        (s.phase = .resolved →
          emitted s = codePoints value.units ∧ (emitted s).flatMap fromCodePoint = value.units)) ∧
      (valueType = "uint8" → InOrder (check valueType) ((TextEncoder.encode value).map UInt8.toNat) s ∧
        (s.phase = .resolved →
          emitted s = (TextEncoder.encode value).map UInt8.toNat ∧
          utf8Decode ((emitted s).map UInt8.ofNat) = some (scalars value.units) ∧
          (utf16 (scalars value.units) = value.units ↔ value.isWellFormed = true)))) ∧
    ∀ start s, emitItems check name valueType (.indexed items) = .inr start →
      Transitions.Steps (step fun _ => .ok ()) Untouched start s → InOrder (fun _ => .ok ()) items s := by
  constructor
  · intro start s entered run
    cases entered
    refine ⟨?_, ?_, ?_⟩
    · intro notPoints notBytes
      exact string_refused (stringItems_other notPoints notBytes) run
    · rintro rfl
      obtain ⟨ordered, all⟩ := string_inOrder stringItems_int32 run
      refine ⟨ordered, fun done => ⟨all done, ?_⟩⟩
      rw [all done]
      exact codePoints_back value.units
    · rintro rfl
      obtain ⟨ordered, all⟩ := string_inOrder stringItems_uint8 run
      refine ⟨ordered, fun done => ⟨all done, ?_, (wellFormed_iff value.units).symm⟩⟩
      rw [all done]
      exact bytes_back value
  · intro start s entered run
    cases entered
    exact run_inOrder run

/-- A letter, a pair of surrogates and a lone one. -/
def mixed : JsString := ⟨[0x61, 0xD83D, 0xDE00, 0xD83D]⟩

theorem items_emitted_mixed :
    ∃ s, Transitions.Steps (step fun _ : Nat => (.ok () : Except Unit Unit)) Transitions.Any
        (emitStringItems (fun _ _ => .ok ()) "int32" mixed) s ∧
      s.phase = .resolved ∧ emitted s = [0x61, 0x1F600, 0xD83D] ∧ (emitted s).flatMap fromCodePoint = mixed.units := by
  obtain ⟨s, done, resolved⟩ : ∃ s, Transitions.exec (step fun _ : Nat => (.ok () : Except Unit Unit))
      (emitStringItems (fun _ _ => .ok ()) "int32" mixed) [.settles (.ok ()), .settles (.ok ()), .settles (.ok ())] = some s ∧
      s.phase = .resolved := ⟨_, rfl, rfl⟩
  have run := Transitions.exec_steps done
  obtain ⟨-, points, -⟩ := (items_emitted (fun _ _ => .ok ()) "flat" "int32" mixed ([] : List Unit)).1 _ s rfl run
  obtain ⟨emits, back⟩ := (points rfl).2 resolved
  exact ⟨s, run, resolved, emits, back⟩

example : codePoints [0x61, 0xD83D, 0xDE00, 0xD83D] = [0x61, 0x1F600, 0xD83D] := by decide

end FlatMapIterables
