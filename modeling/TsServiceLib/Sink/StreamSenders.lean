import Mathlib.Algebra.Order.BigOperators.Group.Finset
import Mathlib.Data.List.Basic
import Mathlib.Data.Nat.Find
import TsServiceLib.Library.TailChain
import TsServiceLib.Library.Transitions

/-!
The senders of a gRPC stream, the sink's for requests and the source's for
responses. Each send chains its write to the tail it finds; the tail is the
delivery with its rejection caught, and so it settles whether or not the write
succeeds. Closing refuses what comes later and waits for the tail.
-/
namespace StreamSenders
open Function Transitions TailChain
variable {V E : Type}

/-- What sets the two classes apart: the error of a send after `close`, and
    whether `close` is given a call that ends the stream. -/
structure SenderClass where
  closedError : String
  ends : Bool

def StreamSender : SenderClass := ⟨"gRPC request stream is closed", true⟩
def StreamingSender : SenderClass := ⟨"stream is closed", false⟩

inductive Settlement (E : Type) where
  | fulfilled
  | rejected (error : E)
  deriving DecidableEq

/-- A call of `close`, and the tail it waits for. -/
structure Closing where
  tail : Option Nat
  completed : Bool := false
  deriving DecidableEq

/-- Deliveries are numbered in the order of the calls of `send`. `chain` is their
    chain of promises, where `running` means that the write has been issued and
    `settled` that the handler of `catch` has run; `answered` is the promise
    around the write, `delivered` the one that `send` returned. `written` are the
    writes with what the transport returned, which the code drops. -/
structure Sender (V E : Type) where
  active : Bool := true
  chain : Chain Unit := Chain.empty ()
  sent : List V := []
  written : List (V × Bool) := []
  refused : List (V × String) := []
  answered : Nat → Option (Settlement E) := fun _ => none
  delivered : Nat → Option (Settlement E) := fun _ => none
  closes : List Closing := []
  ends : Nat := 0

section Operations
variable (kind : SenderClass) (s : Sender V E)

def send (value : V) : Sender V E :=
  if !s.active then { s with refused := s.refused ++ [(value, kind.closedError)] }
  else { s with chain := s.chain.attach (), sent := s.sent ++ [value] }

/-- The callback of a write, or the exception of `#write`; only the first one counts. -/
def answer (k : Nat) (result : Settlement E) : Sender V E :=
  match s.answered k with
  | none => { s with answered := update s.answered k (some result) }
  | some _ => s

/-- The callback of `then` calls `#write`, which may throw or call back at once. -/
def issue (k : Nat) (taken : Bool) (result : Option (Settlement E)) : Option (Sender V E) :=
  match s.sent[k]? with
  | none => none
  | some value =>
    if s.chain.ready k then
      let issued := { s with chain := s.chain.start k, written := s.written ++ [(value, taken)] }
      some (match result with
        | none => issued
        | some result => answer issued k result)
    else none

/-- The delivery settles as the promise around its write. -/
def deliver (k : Nat) : Option (Sender V E) :=
  if s.chain.status k = .running ∧ s.delivered k = none then
    (s.answered k).map fun result => { s with delivered := update s.delivered k (some result) }
  else none

/-- The handler of `catch`, or the fulfilment it passes on. -/
def settleTail (k : Nat) : Option (Sender V E) :=
  if s.chain.status k = .running ∧ s.delivered k ≠ none then some { s with chain := s.chain.settle k } else none

def close : Sender V E := { s with active := false, closes := s.closes ++ [{ tail := s.chain.tail () }] }

/-- `close` goes on once the tail has settled. -/
def complete (j : Nat) : Option (Sender V E) :=
  match s.closes[j]? with
  | none => none
  | some closing =>
    if closing.completed = false ∧ ∀ k ∈ closing.tail, s.chain.status k = .settled then
      some { s with
        closes := s.closes.set j { closing with completed := true }
        ends := s.ends + kind.ends.toNat }
    else none

end Operations

inductive Action (V E : Type) where
  | send (value : V)
  | issue (k : Nat) (taken : Bool) (result : Option (Settlement E))
  | answer (k : Nat) (result : Settlement E)
  | deliver (k : Nat)
  | settleTail (k : Nat)
  | close
  | complete (j : Nat)

/-- A callback comes only from a write that was issued. -/
def step (kind : SenderClass) (s : Sender V E) : Action V E → Option (Sender V E)
  | .send value => some (send kind s value)
  | .issue k taken result => issue s k taken result
  | .answer k result => if k < s.written.length then some (answer s k result) else none
  | .deliver k => deliver s k
  | .settleTail k => settleTail s k
  | .close => some (close s)
  | .complete j => complete kind s j

def Reachable (kind : SenderClass) (s : Sender V E) : Prop := Steps (step kind) Any {} s

section Invariant
variable {kind : SenderClass} {s t : Sender V E}

/-- The deliveries before `written.length` have had their write issued, in order. -/
structure Sound (kind : SenderClass) (s : Sender V E) : Prop where
  chain : s.chain.WellFormed
  accepted : s.sent.length = s.chain.next
  order : s.written.map Prod.fst = s.sent.take s.written.length
  bound : s.written.length ≤ s.sent.length
  issued : ∀ k, k < s.chain.next → (s.chain.status k ≠ .waiting ↔ k < s.written.length)
  answered : ∀ k, s.answered k ≠ none → k < s.written.length
  delivered : ∀ k result, s.delivered k = some result → s.answered k = some result
  settled : ∀ k, k < s.chain.next → s.chain.status k = .settled → s.delivered k ≠ none
  closed : s.active = false ↔ s.closes ≠ []
  tails : ∀ closing ∈ s.closes, closing.tail = s.chain.tail ()
  completed : ∀ closing ∈ s.closes, closing.completed = true → ∀ k ∈ closing.tail, s.chain.status k = .settled
  ended : s.ends = if kind.ends then s.closes.countP Closing.completed else 0

theorem empty_sound : Sound kind ({} : Sender V E) where
  chain := Chain.empty_wellFormed ()
  accepted := rfl
  order := rfl
  bound := Nat.le_refl _
  issued := by simp [Chain.empty]
  answered := by simp
  delivered := by simp
  settled := by simp [Chain.empty]
  closed := by simp
  tails := by simp
  completed := by simp
  ended := by simp

theorem send_sound (sound : Sound kind s) (value : V) : Sound kind (send kind s value) := by
  unfold send
  split
  · exact ⟨sound.chain, sound.accepted, sound.order, sound.bound, sound.issued, sound.answered, sound.delivered,
      sound.settled, sound.closed, sound.tails, sound.completed, sound.ended⟩
  · rename_i open'
    have active : s.active = true := by simpa using open'
    have none' : s.closes = [] := by
      by_contra some'
      have shut := sound.closed.2 some'
      rw [active] at shut
      cases shut
    have size := sound.accepted
    refine ⟨Chain.attach_wellFormed sound.chain (), ?_, ?_, ?_, ?_, sound.answered, sound.delivered, ?_, ?_, ?_, ?_, ?_⟩
    · simp [Chain.attach, size]
    · rw [List.take_append_of_le_length sound.bound]
      exact sound.order
    · simp only [List.length_append, List.length_singleton]
      have bound := sound.bound
      omega
    · intro k within
      simp only [Chain.attach] at within ⊢
      by_cases new : k = s.chain.next
      · subst new
        have bound := sound.bound
        simp only [update_self, ne_eq, not_true_eq_false, false_iff]
        omega
      · rw [update_of_ne new]
        exact sound.issued k (by omega)
    · intro k within settled
      simp only [Chain.attach] at within settled
      by_cases new : k = s.chain.next
      · subst new
        rw [update_self] at settled
        cases settled
      · rw [update_of_ne new] at settled
        exact sound.settled k (by omega) settled
    · simp [active, none']
    · simp [none']
    · simp [none']
    · exact sound.ended

theorem answer_sound (sound : Sound kind s) {k : Nat} (issued : k < s.written.length) (result : Settlement E) :
    Sound kind (answer s k result) := by
  unfold answer
  split
  · rename_i unanswered
    refine ⟨sound.chain, sound.accepted, sound.order, sound.bound, sound.issued, ?_, ?_, sound.settled, sound.closed,
      sound.tails, sound.completed, sound.ended⟩
    · intro j answered
      by_cases same : j = k
      · exact same ▸ issued
      · simp only [update_of_ne same] at answered
        exact sound.answered j answered
    · intro j result' delivered
      have before := sound.delivered j result' delivered
      have ne : j ≠ k := by
        intro same
        rw [same, unanswered] at before
        cases before
      simp only [update_of_ne ne]
      exact before
  · exact sound

/-- What a delivery whose turn it is has before it. -/
theorem ready_next (sound : Sound kind s) {k : Nat} (ready : s.chain.ready k = true) : k = s.written.length := by
  obtain ⟨within, waiting, -⟩ := (Chain.ready_iff s.chain k).mp ready
  have behind : ¬k < s.written.length := by
    rw [← sound.issued k within, waiting]
    simp
  by_contra other
  have earlier : s.written.length < k := by omega
  have settled := Chain.ready_settled_before sound.chain ready earlier rfl
  have issued := (sound.issued s.written.length (by omega)).1 (by rw [settled]; decide)
  omega

theorem start_sound (sound : Sound kind s) {k : Nat} {value : V} (accepted : s.sent[k]? = some value)
    (ready : s.chain.ready k = true) (taken : Bool) :
    Sound kind { s with chain := s.chain.start k, written := s.written ++ [(value, taken)] } := by
  have here := ready_next sound ready
  obtain ⟨within, waiting, -⟩ := (Chain.ready_iff s.chain k).mp ready
  have size := sound.accepted
  have kept : ∀ j, s.chain.status j = .settled → (s.chain.start k).status j = .settled := by
    intro j settled
    have ne : j ≠ k := by
      intro same
      rw [same, waiting] at settled
      cases settled
    simp only [Chain.start, update_of_ne ne]
    exact settled
  refine ⟨Chain.start_wellFormed sound.chain ready, size, ?_, ?_, ?_, ?_, sound.delivered, ?_, sound.closed, sound.tails, ?_,
    sound.ended⟩
  · have next : s.sent[s.written.length]? = some value := here ▸ accepted
    simp only [List.map_append, List.map_cons, List.map_nil, List.length_append, List.length_singleton, sound.order]
    rw [List.take_add_one, next]
    rfl
  · simp only [List.length_append, List.length_singleton]
    omega
  · intro j within'
    simp only [Chain.start, List.length_append, List.length_singleton] at within' ⊢
    by_cases same : j = k
    · subst same
      simp only [update_self, ne_eq, reduceCtorEq, not_false_eq_true, true_iff]
      omega
    · rw [update_of_ne same, sound.issued j within']
      omega
  · intro j answered
    have before := sound.answered j answered
    simp only [List.length_append, List.length_singleton]
    omega
  · intro j within' settled
    have ne : j ≠ k := by
      intro same
      simp only [Chain.start, same, update_self] at settled
      cases settled
    simp only [Chain.start, update_of_ne ne] at settled
    exact sound.settled j within' settled
  · intro closing member completed j awaited
    exact kept j (sound.completed closing member completed j awaited)

theorem issue_sound (sound : Sound kind s) {k : Nat} {taken : Bool} {result : Option (Settlement E)}
    (next : issue s k taken result = some t) : Sound kind t := by
  unfold issue at next
  split at next
  · cases next
  · rename_i value accepted
    split at next
    · rename_i ready
      have started := start_sound sound accepted ready taken
      have here := ready_next sound ready
      cases result with
      | none =>
        cases next
        exact started
      | some result =>
        cases next
        refine answer_sound started ?_ result
        simp only [List.length_append, List.length_singleton]
        omega
    · cases next

theorem deliver_sound (sound : Sound kind s) {k : Nat} (next : deliver s k = some t) : Sound kind t := by
  unfold deliver at next
  split at next
  · rename_i enabled
    rw [Option.map_eq_some_iff] at next
    obtain ⟨result, answered, rfl⟩ := next
    refine ⟨sound.chain, sound.accepted, sound.order, sound.bound, sound.issued, sound.answered, ?_, ?_, sound.closed,
      sound.tails, sound.completed, sound.ended⟩
    · intro j result' delivered
      by_cases same : j = k
      · subst same
        simp only [update_self, Option.some.injEq] at delivered
        rw [← delivered]
        exact answered
      · simp only [update_of_ne same] at delivered
        exact sound.delivered j result' delivered
    · intro j within settled
      by_cases same : j = k
      · simp [same]
      · simp only [update_of_ne same]
        exact sound.settled j within settled
  · cases next

theorem settleTail_sound (sound : Sound kind s) {k : Nat} (next : settleTail s k = some t) : Sound kind t := by
  unfold settleTail at next
  split at next
  · rename_i enabled
    obtain ⟨running, delivered⟩ := enabled
    cases next
    have issued : k < s.written.length := by
      obtain ⟨result, known⟩ := Option.ne_none_iff_exists'.mp delivered
      apply sound.answered k
      rw [sound.delivered k result known]
      exact Option.some_ne_none _
    have size := sound.accepted
    have bound := sound.bound
    refine ⟨Chain.settle_wellFormed sound.chain (by omega) (by rw [running]; decide), size, sound.order, bound, ?_,
      sound.answered, sound.delivered, ?_, sound.closed, sound.tails, ?_, sound.ended⟩
    · intro j within
      simp only [Chain.settle] at within ⊢
      by_cases same : j = k
      · subst same
        simp [issued]
      · rw [update_of_ne same]
        exact sound.issued j within
    · intro j within settled
      by_cases same : j = k
      · exact same ▸ delivered
      · simp only [Chain.settle, update_of_ne same] at settled
        exact sound.settled j within settled
    · intro closing member completed j awaited
      by_cases same : j = k
      · simp [Chain.settle, same]
      · simp only [Chain.settle, update_of_ne same]
        exact sound.completed closing member completed j awaited
  · cases next

theorem close_sound (sound : Sound kind s) : Sound kind (close s) := by
  refine ⟨sound.chain, sound.accepted, sound.order, sound.bound, sound.issued, sound.answered, sound.delivered,
    sound.settled, by simp [close], ?_, ?_, ?_⟩
  · intro closing member
    rcases List.mem_append.mp member with member | member
    · exact sound.tails closing member
    · rw [List.mem_singleton.mp member]
      rfl
  · intro closing member completed
    rcases List.mem_append.mp member with member | member
    · exact sound.completed closing member completed
    · rw [List.mem_singleton.mp member] at completed
      cases completed
  · simp only [close, List.countP_append, List.countP_singleton, Bool.false_eq_true, if_false, Nat.add_zero]
    exact sound.ended

theorem complete_sound (sound : Sound kind s) {j : Nat} (next : complete kind s j = some t) : Sound kind t := by
  unfold complete at next
  split at next
  · cases next
  · rename_i closing found
    split at next
    · rename_i enabled
      obtain ⟨fresh, settled⟩ := enabled
      cases next
      obtain ⟨within, same⟩ := List.getElem?_eq_some_iff.mp found
      have member : closing ∈ s.closes := List.mem_of_getElem? found
      refine ⟨sound.chain, sound.accepted, sound.order, sound.bound, sound.issued, sound.answered, sound.delivered,
        sound.settled, ?_, ?_, ?_, ?_⟩
      · rw [sound.closed]
        simp
      · intro other known
        rcases List.mem_or_eq_of_mem_set known with known | rfl
        · exact sound.tails other known
        · exact sound.tails closing member
      · intro other known completed k awaited
        rcases List.mem_or_eq_of_mem_set known with known | rfl
        · exact sound.completed other known completed k awaited
        · exact settled k awaited
      · have before := sound.ended
        rw [List.countP_set within]
        simp only [same, fresh, Bool.false_eq_true, if_false, if_true, Nat.sub_zero]
        cases ends : kind.ends <;> simp only [ends, Bool.toNat_false, Bool.toNat_true, if_true, Bool.false_eq_true, if_false] at before ⊢ <;> omega
    · cases next

theorem step_sound (sound : Sound kind s) {a : Action V E} (next : step kind s a = some t) : Sound kind t := by
  cases a with
  | send value =>
    cases next
    exact send_sound sound value
  | issue k taken result => exact issue_sound sound next
  | answer k result =>
    simp only [step] at next
    split at next
    · rename_i issued
      cases next
      exact answer_sound sound issued result
    · cases next
  | deliver k => exact deliver_sound sound next
  | settleTail k => exact settleTail_sound sound next
  | close =>
    cases next
    exact close_sound sound
  | complete j => exact complete_sound sound next

theorem reachable_sound (reach : Reachable kind s) : Sound kind s :=
  steps_invariant (Sound kind) (fun _ _ _ sound _ next => step_sound sound next) reach empty_sound

end Invariant

section Outcome
variable {kind : SenderClass} {s t : Sender V E}

theorem tail_settled (sound : Sound kind s) (settled : ∀ k ∈ s.chain.tail (), s.chain.status k = .settled)
    {k : Nat} (within : k < s.chain.next) : s.chain.status k = .settled := by
  obtain ⟨last, tail, behind⟩ := sound.chain.tail_covers within
  have first := settled last tail
  rcases Nat.lt_or_eq_of_le behind with earlier | same
  · exact sound.chain.serial (sound.chain.tail_last tail).1 earlier rfl (by rw [first]; decide)
  · exact same ▸ first

theorem earlier_answered (sound : Sound kind s) {k : Nat} (earlier : k + 1 < s.written.length) : s.answered k ≠ none := by
  have size := sound.accepted
  have bound := sound.bound
  have begun := (sound.issued (k + 1) (by omega)).2 earlier
  have settled := sound.chain.serial (by omega : k + 1 < s.chain.next) (Nat.lt_succ_self k) rfl begun
  obtain ⟨result, delivered⟩ := Option.ne_none_iff_exists'.mp (sound.settled k (by omega) settled)
  rw [sound.delivered k result delivered]
  exact Option.some_ne_none _

theorem completed_delivered (sound : Sound kind s) {closing : Closing} (member : closing ∈ s.closes)
    (completed : closing.completed = true) {k : Nat} (accepted : k < s.sent.length) : s.delivered k ≠ none := by
  have within : k < s.chain.next := sound.accepted ▸ accepted
  refine sound.settled k within (tail_settled sound ?_ within)
  intro last tail
  exact sound.completed closing member completed last (sound.tails closing member ▸ tail)

theorem ended_delivered (sound : Sound kind s) (ended : 0 < s.ends) {k : Nat} (accepted : k < s.sent.length) :
    s.delivered k ≠ none := by
  have count := sound.ended
  have some' : 0 < s.closes.countP Closing.completed := by
    split at count <;> omega
  obtain ⟨closing, member, completed⟩ := List.countP_pos_iff.mp some'
  exact completed_delivered sound member completed accepted

/-- What the promises do by themselves, apart from calls and the transport's answers. -/
def Action.continues : Action V E → Bool
  | .issue _ _ _ | .deliver _ | .settleTail _ | .complete _ => true
  | .send _ | .answer _ _ | .close => false

/-- All deliveries are over: their tails have settled. -/
def Idle (s : Sender V E) : Prop := ∀ k, k < s.chain.next → s.chain.status k = .settled

/-- Of the deliveries that are not over, the first can go on, unless its write has not been answered. -/
theorem chain_moves (sound : Sound kind s) (busy : ¬Idle s) :
    (∃ k, k < s.written.length ∧ s.answered k = none) ∨
      ∃ a t, a.continues = true ∧ step kind s a = some t := by
  classical
  have some' : ∃ k, k < s.chain.next ∧ s.chain.status k ≠ .settled := by
    unfold Idle at busy
    push Not at busy
    exact busy
  obtain ⟨within, unsettled⟩ := Nat.find_spec some'
  have before : ∀ j, j < Nat.find some' → s.chain.status j = .settled := by
    intro j earlier
    by_contra open'
    exact Nat.find_min some' earlier ⟨by omega, open'⟩
  generalize Nat.find some' = k at within unsettled before
  cases status : s.chain.status k with
  | waiting =>
    right
    have ready : s.chain.ready k = true := by
      rw [Chain.ready_iff]
      refine ⟨within, status, ?_⟩
      intro p previous
      exact before p (sound.chain.previous_earlier within previous).1
    have accepted : k < s.sent.length := sound.accepted ▸ within
    have moves : (step kind s (.issue k true none)).isSome = true := by
      simp only [step, issue, List.getElem?_eq_getElem accepted, ready, if_true, Option.isSome_some]
    obtain ⟨t, next⟩ := Option.isSome_iff_exists.mp moves
    exact ⟨_, t, rfl, next⟩
  | running =>
    have issued := (sound.issued k within).1 (by rw [status]; decide)
    cases answered : s.answered k with
    | none => exact .inl ⟨k, issued, answered⟩
    | some result =>
      right
      by_cases delivered : s.delivered k = none
      · have moves : (step kind s (.deliver k)).isSome = true := by
          simp only [step, deliver, status, delivered, and_self, if_true, answered, Option.map_some, Option.isSome_some]
        obtain ⟨t, next⟩ := Option.isSome_iff_exists.mp moves
        exact ⟨_, t, rfl, next⟩
      · have moves : (step kind s (.settleTail k)).isSome = true := by
          simp only [step, settleTail, status, delivered, ne_eq, not_false_eq_true, and_self, if_true, Option.isSome_some]
        obtain ⟨t, next⟩ := Option.isSome_iff_exists.mp moves
        exact ⟨_, t, rfl, next⟩
  | settled => exact absurd status unsettled

/-- When no write is outstanding, either something goes on, or all sends and closes are over. -/
theorem goes_on (sound : Sound kind s) (answered : ∀ k, k < s.written.length → s.answered k ≠ none) :
    (∃ a t, a.continues = true ∧ step kind s a = some t) ∨
      (∀ k, k < s.sent.length → s.delivered k ≠ none) ∧ ∀ closing ∈ s.closes, closing.completed = true := by
  by_cases idle : Idle s
  · by_cases all : ∀ closing ∈ s.closes, closing.completed = true
    · refine .inr ⟨?_, all⟩
      intro k accepted
      have within : k < s.chain.next := sound.accepted ▸ accepted
      exact sound.settled k within (idle k within)
    · left
      push Not at all
      obtain ⟨closing, member, open'⟩ := all
      obtain ⟨j, within, found⟩ := List.mem_iff_getElem.mp member
      have settled : ∀ k ∈ closing.tail, s.chain.status k = .settled := by
        intro k tail
        rw [sound.tails closing member] at tail
        exact idle k (sound.chain.tail_last tail).1
      have fresh : closing.completed = false := by simpa using open'
      have moves : (step kind s (.complete j)).isSome = true := by
        simp only [step, complete, List.getElem?_eq_getElem within, found]
        rw [if_pos ⟨fresh, settled⟩]
        rfl
      obtain ⟨t, next⟩ := Option.isSome_iff_exists.mp moves
      exact ⟨_, t, rfl, next⟩
  · rcases chain_moves sound idle with ⟨k, issued, open'⟩ | moves
    · exact absurd open' (answered k issued)
    · exact .inl moves

/-- How far a delivery is from being over. -/
def weight (s : Sender V E) (k : Nat) : Nat :=
  match s.chain.status k with
  | .waiting => 4
  | .running => 1 + (s.answered k).isNone.toNat + (s.delivered k).isNone.toNat
  | .settled => 0

/-- A bound on the steps that are left when nothing is sent or closed any more. -/
def remaining (s : Sender V E) : Nat :=
  ∑ k ∈ Finset.range s.chain.next, weight s k + s.closes.countP fun closing => !closing.completed

theorem remaining_of_weight {k : Nat} (within : k < s.chain.next) (next : t.chain.next = s.chain.next)
    (closes : t.closes = s.closes) (lighter : weight t k < weight s k)
    (same : ∀ j, j ≠ k → weight t j = weight s j) : remaining t < remaining s := by
  unfold remaining
  rw [next, closes, Nat.add_lt_add_iff_right]
  apply Finset.sum_lt_sum
  · intro j _
    by_cases here : j = k
    · exact here ▸ lighter.le
    · exact (same j here).le
  · exact ⟨k, Finset.mem_range.mpr within, lighter⟩

theorem answer_drops (sound : Sound kind s) {k : Nat} (issued : k < s.written.length) (result : Settlement E) :
    answer s k result = s ∨ remaining (answer s k result) < remaining s := by
  unfold answer
  split
  · rename_i unanswered
    right
    have size := sound.accepted
    have bound := sound.bound
    have within : k < s.chain.next := by omega
    have undelivered : s.delivered k = none := by
      by_contra delivered
      obtain ⟨result, known⟩ := Option.ne_none_iff_exists'.mp delivered
      rw [sound.delivered k result known] at unanswered
      cases unanswered
    have running : s.chain.status k = .running := by
      cases status : s.chain.status k with
      | waiting => exact absurd status ((sound.issued k within).2 issued)
      | running => rfl
      | settled => exact absurd undelivered (sound.settled k within status)
    refine remaining_of_weight within rfl rfl ?_ ?_
    · simp [weight, running, unanswered]
    · intro j ne
      simp [weight, ne]
  · exact .inl rfl

theorem issue_drops (sound : Sound kind s) {k : Nat} {taken : Bool} {result : Option (Settlement E)}
    (next : issue s k taken result = some t) : remaining t < remaining s := by
  unfold issue at next
  split at next
  · cases next
  · rename_i value accepted
    split at next
    · rename_i ready
      obtain ⟨within, waiting, -⟩ := (Chain.ready_iff s.chain k).mp ready
      have unanswered : s.answered k = none := by
        by_contra answered
        have issued := sound.answered k answered
        exact (sound.issued k within).2 issued waiting
      have bit : (s.delivered k).isNone.toNat ≤ 1 := Bool.toNat_le _
      cases result with
      | none =>
        cases next
        refine remaining_of_weight within rfl rfl ?_ ?_
        · simp [weight, Chain.start, waiting, unanswered]
          omega
        · intro j ne
          simp [weight, Chain.start, ne]
      | some result =>
        cases next
        refine remaining_of_weight (k := k) within ?_ ?_ ?_ ?_
        · simp [answer, unanswered, Chain.start]
        · simp [answer, unanswered]
        · simp [weight, answer, Chain.start, waiting, unanswered]
          omega
        · intro j ne
          simp [weight, answer, Chain.start, unanswered, ne]
    · cases next

theorem deliver_drops (sound : Sound kind s) {k : Nat} (next : deliver s k = some t) : remaining t < remaining s := by
  unfold deliver at next
  split at next
  · rename_i enabled
    obtain ⟨running, undelivered⟩ := enabled
    rw [Option.map_eq_some_iff] at next
    obtain ⟨result, answered, rfl⟩ := next
    have issued : k < s.written.length := sound.answered k (by rw [answered]; exact Option.some_ne_none _)
    have size := sound.accepted
    have bound := sound.bound
    refine remaining_of_weight (k := k) (by omega) rfl rfl ?_ ?_
    · simp [weight, running, undelivered]
    · intro j ne
      simp [weight, ne]
  · cases next

theorem settleTail_drops (sound : Sound kind s) {k : Nat} (next : settleTail s k = some t) : remaining t < remaining s := by
  unfold settleTail at next
  split at next
  · rename_i enabled
    obtain ⟨running, delivered⟩ := enabled
    cases next
    have size := sound.accepted
    have bound := sound.bound
    have issued : k < s.written.length := by
      obtain ⟨result, known⟩ := Option.ne_none_iff_exists'.mp delivered
      apply sound.answered k
      rw [sound.delivered k result known]
      exact Option.some_ne_none _
    refine remaining_of_weight (k := k) (by omega) rfl rfl ?_ ?_
    · simp [weight, Chain.settle, running]
    · intro j ne
      simp [weight, Chain.settle, ne]
  · cases next

theorem complete_drops {j : Nat} (next : complete kind s j = some t) : remaining t < remaining s := by
  unfold complete at next
  split at next
  · cases next
  · rename_i closing found
    split at next
    · rename_i enabled
      obtain ⟨fresh, -⟩ := enabled
      cases next
      obtain ⟨within, same⟩ := List.getElem?_eq_some_iff.mp found
      have positive : 0 < s.closes.countP fun closing => !closing.completed :=
        List.countP_pos_iff.mpr ⟨closing, List.mem_of_getElem? found, by simp [fresh]⟩
      have kept : weight { s with
          closes := s.closes.set j { closing with completed := true }
          ends := s.ends + kind.ends.toNat } = weight s := rfl
      unfold remaining
      rw [kept, Nat.add_lt_add_iff_left, List.countP_set within]
      simp only [same, fresh, Bool.not_false, Bool.not_true, if_true, Bool.false_eq_true, if_false]
      omega
    · cases next

/-- Everything but a call brings the deliveries nearer to their end, a repeated answer apart. -/
theorem step_drops (sound : Sound kind s) {a : Action V E} (next : step kind s a = some t) :
    (∃ value, a = .send value) ∨ a = .close ∨ t = s ∨ remaining t < remaining s := by
  cases a with
  | send value => exact .inl ⟨value, rfl⟩
  | issue k taken result => exact .inr (.inr (.inr (issue_drops sound next)))
  | answer k result =>
    simp only [step] at next
    split at next
    · rename_i issued
      cases next
      exact .inr (.inr (answer_drops sound issued result))
    · cases next
  | deliver k => exact .inr (.inr (.inr (deliver_drops sound next)))
  | settleTail k => exact .inr (.inr (.inr (settleTail_drops sound next)))
  | close => exact .inr (.inl rfl)
  | complete j => exact .inr (.inr (.inr (complete_drops next)))

/- Of both senders, in every reachable state: the writes are the accepted sends in
   the order of the calls, none issued before the one before it has been
   answered; a send after `close` is refused and changes nothing else; a send
   settles with the outcome of its own write; a close that has completed, and for
   the sink's sender the end of the stream, finds every accepted send settled;
   and no send or close is left behind once the transport has answered. -/
theorem sends_in_order (reach : Reachable kind s) :
    s.written.map Prod.fst <+: s.sent ∧ (∀ k, k + 1 < s.written.length → s.answered k ≠ none) ∧
      (s.closes ≠ [] → ∀ value, send kind s value = { s with refused := s.refused ++ [(value, kind.closedError)] }) ∧
      (∀ k result, s.delivered k = some result → k < s.written.length ∧ s.answered k = some result) ∧
      (∀ closing ∈ s.closes, closing.completed = true → ∀ k, k < s.sent.length → s.delivered k ≠ none) ∧
      (0 < s.ends → ∀ k, k < s.sent.length → s.delivered k ≠ none) ∧
      ((∀ k, k < s.written.length → s.answered k ≠ none) →
        (∃ a t, a.continues = true ∧ step kind s a = some t) ∨
          (∀ k, k < s.sent.length → s.delivered k ≠ none) ∧ ∀ closing ∈ s.closes, closing.completed = true) ∧
      (∀ a t, step kind s a = some t →
        (∃ value, a = .send value) ∨ a = .close ∨ t = s ∨ remaining t < remaining s) := by
  have sound := reachable_sound reach
  refine ⟨?_, ?_, ?_, ?_, ?_, ?_, goes_on sound, ?_⟩
  · rw [sound.order]
    exact List.take_prefix _ _
  · intro k earlier
    exact earlier_answered sound earlier
  · intro closed value
    have inactive := sound.closed.2 closed
    simp only [send, inactive, Bool.not_false, if_true]
  · intro k result delivered
    have answered := sound.delivered k result delivered
    exact ⟨sound.answered k (by rw [answered]; exact Option.some_ne_none _), answered⟩
  · intro closing member completed k accepted
    exact completed_delivered sound member completed accepted
  · intro ended k accepted
    exact ended_delivered sound ended accepted
  · intro a t next
    exact step_drops sound next

/-- Two sends of which the first write fails, and a close. -/
def failingRun : List (Action String String) :=
  [.send "a", .send "b", .issue 0 false none, .close, .send "c", .answer 0 (.rejected "broken"), .deliver 0, .settleTail 0,
    .issue 1 true (some .fulfilled), .deliver 1, .settleTail 1, .complete 0]

theorem sends_in_order_failing : ∃ s : Sender String String, Reachable StreamSender s ∧ s.ends = 1 ∧
    s.delivered 0 = some (.rejected "broken") ∧ s.refused = [("c", "gRPC request stream is closed")] ∧
    s.written.map Prod.fst <+: s.sent := by
  have evaluated : ((exec (step StreamSender) ({} : Sender String String) failingRun).any fun s =>
      decide (s.ends = 1 ∧ s.delivered 0 = some (.rejected "broken") ∧
        s.refused = [("c", "gRPC request stream is closed")])) = true := by
    decide +kernel
  simp only [Option.any_eq_true, decide_eq_true_eq] at evaluated
  obtain ⟨s, reached, ends, delivered, refused⟩ := evaluated
  exact ⟨s, exec_steps reached, ends, delivered, refused, (sends_in_order (exec_steps reached)).1⟩

end Outcome

end StreamSenders
