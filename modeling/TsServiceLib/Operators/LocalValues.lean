import Mathlib.Tactic.Common

/-!
The bindings a message context carries along. A context is read as the chain of
derivations that made it. Only `withLocalValue` adds a binding; every other
derivation keeps those of its parent, and may have another signal and deadline.
A key is known to nobody but its owner, so a binding of the key `call` of one
SubStream stands only where an invocation put it.
-/
namespace LocalValues

/-- `MessageContextKey` compares by identity. `call` is the key of the SubStream in question. -/
inductive Key where
  | call
  | other (name : Nat)
  deriving DecidableEq

/-- `scope` stands for the signal and the deadline that the context has. -/
inductive MessageContext where
  | root (scope : Nat)
  | derived (parent : MessageContext) (scope : Nat)
  | withLocalValue (parent : MessageContext) (key : Key) (value : Nat)
  deriving DecidableEq

namespace MessageContext

def scope : MessageContext → Nat
  | .root scope => scope
  | .derived _ scope => scope
  | .withLocalValue parent _ _ => parent.scope

/-- The walk of `localValue` from the newest binding to the oldest. -/
def localValue (key : Key) : MessageContext → Option Nat
  | .root _ => none
  | .derived parent _ => parent.localValue key
  | .withLocalValue parent bound value => if bound = key then some value else parent.localValue key

end MessageContext

/-- The second context is the first or was derived from it, however often. -/
inductive Derives (ancestor : MessageContext) : MessageContext → Prop where
  | refl : Derives ancestor ancestor
  | derived {parent : MessageContext} (scope : Nat) (earlier : Derives ancestor parent) :
      Derives ancestor (.derived parent scope)
  | withLocalValue {parent : MessageContext} (key : Key) (value : Nat) (earlier : Derives ancestor parent) :
      Derives ancestor (.withLocalValue parent key value)

/-- Which callers the invocations had. An invocation that was not made has none. -/
abbrev Callers := Nat → Option MessageContext

/-- Every binding of the key `call` in the context is that of an invocation. -/
def issued (callers : Callers) : MessageContext → Bool
  | .root _ => true
  | .derived parent _ => issued callers parent
  | .withLocalValue parent .call value => issued callers parent && decide (callers value = some parent)
  | .withLocalValue parent (.other _) _ => issued callers parent

def invocation (c : Nat) (caller : MessageContext) : MessageContext := .withLocalValue caller .call c

/-- The innermost invocation around a context: the context derives from it, and
    it derives itself from every other invocation that the context derives from. -/
def Innermost (callers : Callers) (context : MessageContext) (c : Nat) : Prop :=
  ∃ caller, callers c = some caller ∧ Derives (invocation c caller) context ∧
    ∀ c' caller', callers c' = some caller' → Derives (invocation c' caller') context →
      Derives (invocation c' caller') (invocation c caller)

theorem derives_size {a b : MessageContext} (derives : Derives a b) : a = b ∨ sizeOf a < sizeOf b := by
  induction derives with
  | refl => exact .inl rfl
  | derived scope _ ih =>
    right
    rcases ih with rfl | smaller
    · simp only [MessageContext.derived.sizeOf_spec]
      omega
    · simp only [MessageContext.derived.sizeOf_spec]
      omega
  | withLocalValue key value _ ih =>
    right
    rcases ih with rfl | smaller
    · simp only [MessageContext.withLocalValue.sizeOf_spec]
      omega
    · simp only [MessageContext.withLocalValue.sizeOf_spec]
      omega

theorem derives_antisymm {a b : MessageContext} (there : Derives a b) (back : Derives b a) : a = b := by
  rcases derives_size there with same | smaller
  · exact same
  · rcases derives_size back with same | larger
    · exact same.symm
    · omega

theorem innermost_unique {callers : Callers} {context : MessageContext} {c c' : Nat}
    (first : Innermost callers context c) (second : Innermost callers context c') : c = c' := by
  obtain ⟨caller, made, derives, inner⟩ := first
  obtain ⟨caller', made', derives', inner'⟩ := second
  have same := derives_antisymm (inner' c caller made derives) (inner c' caller' made' derives')
  simp only [invocation, MessageContext.withLocalValue.injEq] at same
  exact same.2.2

theorem innermost_of_localValue {callers : Callers} {context : MessageContext} {c : Nat}
    (genuine : issued callers context = true) (found : context.localValue .call = some c) :
    Innermost callers context c := by
  induction context with
  | root scope => simp [MessageContext.localValue] at found
  | derived parent scope ih =>
    obtain ⟨caller, made, derives, inner⟩ := ih genuine found
    refine ⟨caller, made, .derived scope derives, fun c' caller' made' outer => ?_⟩
    cases outer with
    | derived _ earlier => exact inner c' caller' made' earlier
  | withLocalValue parent key value ih =>
    cases key with
    | call =>
      simp only [issued, Bool.and_eq_true, decide_eq_true_eq] at genuine
      simp only [MessageContext.localValue, if_true, Option.some.injEq] at found
      subst found
      exact ⟨parent, genuine.2, .refl, fun c' caller' _ outer => outer⟩
    | other name =>
      simp only [MessageContext.localValue, reduceCtorEq, if_false] at found
      obtain ⟨caller, made, derives, inner⟩ := ih genuine found
      refine ⟨caller, made, .withLocalValue _ value derives, fun c' caller' made' outer => ?_⟩
      cases outer with
      | withLocalValue _ _ earlier => exact inner c' caller' made' earlier

theorem localValue_of_derives {caller context : MessageContext} {c : Nat}
    (derives : Derives (invocation c caller) context) : ∃ found, context.localValue .call = some found := by
  induction derives with
  | refl => exact ⟨c, by simp [invocation, MessageContext.localValue]⟩
  | derived _ _ ih => exact ih
  | withLocalValue key value _ ih =>
    simp only [MessageContext.localValue]
    split
    · exact ⟨value, rfl⟩
    · exact ih

theorem localValue_iff_innermost {callers : Callers} {context : MessageContext} {c : Nat}
    (genuine : issued callers context = true) :
    context.localValue .call = some c ↔ Innermost callers context c := by
  constructor
  · exact innermost_of_localValue genuine
  · intro inner
    have ⟨caller, _, derives, _⟩ := inner
    obtain ⟨found, finds⟩ := localValue_of_derives derives
    rw [finds, innermost_unique (innermost_of_localValue genuine finds) inner]

theorem issued_mono {callers later : Callers} (kept : ∀ c caller, callers c = some caller → later c = some caller)
    {context : MessageContext} (genuine : issued callers context = true) : issued later context = true := by
  induction context with
  | root scope => rfl
  | derived parent scope ih => exact ih genuine
  | withLocalValue parent key value ih =>
    cases key with
    | call =>
      simp only [issued, Bool.and_eq_true, decide_eq_true_eq] at genuine ⊢
      exact ⟨ih genuine.1, kept value parent genuine.2⟩
    | other name => exact ih genuine

end LocalValues
