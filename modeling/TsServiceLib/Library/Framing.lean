import Mathlib.Data.List.Basic

/-!
Writers that append to an output and readers that move over an input. A writer
is known by the bytes it appends, a reader by the bytes it consumes and what it
makes of them; both compose, so that a format is read back part by part.
-/
namespace Framing
variable {Byte Error α β : Type} {capacity : Nat}

theorem bind_ok {x : Except Error α} {f : α → Except Error β} {b : β} :
    (x >>= f) = .ok b ↔ ∃ a, x = .ok a ∧ f a = .ok b := by
  cases x with
  | error e => simp [bind, Except.bind]
  | ok a => simp [bind, Except.bind]

section Writers
variable {write next : List Byte → Except Error (List Byte)} {out later : List Byte}

/-- The writer appends `out`, and fails only where that does not fit. -/
def Appends (capacity : Nat) (write : List Byte → Except Error (List Byte)) (out : List Byte) : Prop :=
  ∀ before result, write before = .ok result ↔ before.length + out.length ≤ capacity ∧ result = before ++ out

theorem appends_bind (first : Appends capacity write out) (second : Appends capacity next later) :
    Appends capacity (fun before => write before >>= next) (out ++ later) := by
  intro before result
  rw [bind_ok, List.length_append]
  constructor
  · rintro ⟨middle, written, more⟩
    obtain ⟨-, shape⟩ := (first before middle).mp written
    obtain ⟨fits, shape'⟩ := (second middle result).mp more
    rw [shape, List.length_append] at fits
    rw [shape', shape, List.append_assoc]
    exact ⟨by omega, rfl⟩
  · rintro ⟨fits, shape⟩
    have written := (first before (before ++ out)).mpr ⟨by omega, rfl⟩
    have more : next (before ++ out) = .ok result := by
      apply (second (before ++ out) result).mpr
      rw [shape, List.length_append, List.append_assoc]
      exact ⟨by omega, rfl⟩
    exact ⟨before ++ out, written, more⟩

theorem appends_foldlM {step : List Byte → α → Except Error (List Byte)} {chunk : α → List Byte} {items : List α}
    (first : Appends capacity write out) (each : ∀ item ∈ items, Appends capacity (fun before => step before item) (chunk item)) :
    Appends capacity (fun before => write before >>= fun output => items.foldlM step output)
      (out ++ items.flatMap chunk) := by
  induction items generalizing write out with
  | nil =>
    intro before result
    simpa using first before result
  | cons item items ih =>
    have head := appends_bind first (each item List.mem_cons_self)
    have tail := ih head (fun item' mem => each item' (List.mem_cons_of_mem item mem))
    intro before result
    have rest := tail before result
    simpa [List.foldlM_cons, List.append_assoc, bind_assoc] using rest

theorem foldlM_ok {step : β → α → Except Error β} {items : List α} {start result : β}
    (looped : items.foldlM step start = .ok result) : ∀ item ∈ items, ∃ before after, step before item = .ok after := by
  induction items generalizing start with
  | nil => exact nofun
  | cons item items ih =>
    rw [List.foldlM_cons] at looped
    obtain ⟨middle, stepped, rest⟩ := bind_ok.mp looped
    intro item' mem
    rcases List.mem_cons.mp mem with same | later
    · rw [same]
      exact ⟨start, middle, stepped⟩
    · exact ih rest item' later

/-- What every step keeps at the front the loop keeps. -/
theorem foldlM_prefix {Item : Type} {step : List Byte → Item → Except Error (List Byte)} {items : List Item}
    {start result : List Byte} (each : ∀ item before after, step before item = .ok after → before <+: after)
    (looped : items.foldlM step start = .ok result) : start <+: result := by
  induction items generalizing start with
  | nil =>
    cases looped
    exact List.prefix_rfl
  | cons item items ih =>
    rw [List.foldlM_cons] at looped
    obtain ⟨middle, stepped, rest⟩ := bind_ok.mp looped
    exact (each item start middle stepped).trans (ih rest)

end Writers

section Readers
variable {data bytes more : List Byte} {x : α} {y : β}

/-- Wherever `bytes` are in the data, the reader moves over them and gives `x`. -/
def Reads (data : List Byte) (read : Nat → Except Error (α × Nat)) (bytes : List Byte) (x : α) : Prop :=
  ∀ before after, data = before ++ bytes ++ after → read before.length = .ok (x, before.length + bytes.length)

theorem reads_bind {read : Nat → Except Error (α × Nat)} {next : α → Nat → Except Error (β × Nat)}
    (first : Reads data read bytes x) (second : Reads data (next x) more y) :
    Reads data (fun offset => read offset >>= fun parsed => next parsed.1 parsed.2) (bytes ++ more) y := by
  intro before after shape
  have head := first before (more ++ after) (by rw [shape]; simp)
  have tail := second (before ++ bytes) after (by rw [shape]; simp)
  rw [List.length_append] at tail
  apply bind_ok.mpr
  refine ⟨(x, before.length + bytes.length), head, ?_⟩
  rw [tail, List.length_append, Nat.add_assoc]

theorem reads_map {read : Nat → Except Error (α × Nat)} {make : α → Except Error β} (first : Reads data read bytes x)
    (made : make x = .ok y) :
    Reads data (fun offset => read offset >>= fun parsed => make parsed.1 >>= fun y => pure (y, parsed.2)) bytes y := by
  intro before after shape
  apply bind_ok.mpr
  refine ⟨_, first before after shape, ?_⟩
  rw [made]
  rfl

def readTimes (read : Nat → Except Error (α × Nat)) : Nat → Nat → Except Error (List α × Nat)
  | 0, offset => pure ([], offset)
  | count + 1, offset => do
    let (item, offset) ← read offset
    let (items, offset) ← readTimes read count offset
    pure (item :: items, offset)

theorem readTimes_length {read : Nat → Except Error (α × Nat)} {count offset next : Nat} {items : List α}
    (looped : readTimes read count offset = .ok (items, next)) : items.length = count := by
  induction count generalizing offset items with
  | zero =>
    cases looped
    rfl
  | succ count ih =>
    obtain ⟨_, _, rest⟩ := bind_ok.mp looped
    obtain ⟨_, later, joined⟩ := bind_ok.mp rest
    cases joined
    rw [List.length_cons, ih later]

/-- Items of one width are read from as many bytes as they take together. -/
theorem readTimes_moves {read : Nat → Except Error (α × Nat)} {width count offset next bound : Nat} {items : List α}
    (each : ∀ offset item next, read offset = .ok (item, next) → next = offset + width ∧ next ≤ bound)
    (within : offset ≤ bound) (looped : readTimes read count offset = .ok (items, next)) :
    next = offset + count * width ∧ next ≤ bound := by
  induction count generalizing offset items with
  | zero =>
    cases looped
    exact ⟨by simp, within⟩
  | succ count ih =>
    obtain ⟨⟨item, middle⟩, first, rest⟩ := bind_ok.mp looped
    obtain ⟨⟨items', last⟩, later, joined⟩ := bind_ok.mp rest
    cases joined
    obtain ⟨moved, below⟩ := each offset item middle first
    obtain ⟨after, bounded⟩ := ih below later
    rw [Nat.add_mul]
    omega

theorem reads_times {read : Nat → Except Error (α × Nat)} {chunk : α → List Byte} {items : List α}
    (each : ∀ item ∈ items, Reads data read (chunk item) item) :
    Reads data (readTimes read items.length) (items.flatMap chunk) items := by
  induction items with
  | nil =>
    intro before after _
    rfl
  | cons item items ih =>
    have tail := ih (fun item' mem => each item' (List.mem_cons_of_mem item mem))
    intro before after shape
    have first := each item List.mem_cons_self before (items.flatMap chunk ++ after) (by rw [shape]; simp)
    have rest := tail (before ++ chunk item) after (by rw [shape]; simp)
    rw [List.length_append] at rest
    rw [List.length_cons, List.flatMap_cons, List.length_append, ← Nat.add_assoc]
    apply bind_ok.mpr
    refine ⟨_, first, bind_ok.mpr ⟨_, rest, rfl⟩⟩

/-- Wherever `bytes` are in the data, what the reader makes of them is `x` in the
    `readable` case only, and then it moves over them. -/
def Restores (data : List Byte) (read : Nat → Except Error (α × Nat)) (bytes : List Byte) (x : α) (readable : Prop) : Prop :=
  ∀ before after, data = before ++ bytes ++ after →
    ∀ next, read before.length = .ok (x, next) ↔ readable ∧ next = before.length + bytes.length

theorem Restores.reads {read : Nat → Except Error (α × Nat)} {readable : Prop}
    (restores : Restores data read bytes x readable) (holds : readable) : Reads data read bytes x :=
  fun before after shape => (restores before after shape _).mpr ⟨holds, rfl⟩

/-- The bytes are read for certain, and made into a value or not. -/
theorem restores_map {read : Nat → Except Error (α × Nat)} {make : α → Except Error β} (first : Reads data read bytes x) :
    Restores data (fun offset => read offset >>= fun parsed => make parsed.1 >>= fun y => pure (y, parsed.2)) bytes y
      (make x = .ok y) := by
  intro before after shape next
  have head := first before after shape
  constructor
  · intro parsed
    obtain ⟨_, moved, rest⟩ := bind_ok.mp parsed
    rw [head] at moved
    cases moved
    obtain ⟨y', made, last⟩ := bind_ok.mp rest
    cases last
    exact ⟨made, rfl⟩
  · rintro ⟨made, same⟩
    rw [same]
    exact bind_ok.mpr ⟨_, head, bind_ok.mpr ⟨y, made, rfl⟩⟩

/-- What is read for certain says how to go on. -/
theorem restores_after {read : Nat → Except Error (α × Nat)} {next : α → Nat → Except Error (β × Nat)} {readable : Prop}
    (first : Reads data read bytes x) (second : Restores data (next x) more y readable) :
    Restores data (fun offset => read offset >>= fun parsed => next parsed.1 parsed.2) (bytes ++ more) y readable := by
  intro before after shape last
  have head := first before (more ++ after) (by rw [shape]; simp)
  have tail := second (before ++ bytes) after (by rw [shape]; simp) last
  have same : (before ++ bytes).length + more.length = before.length + (bytes ++ more).length := by
    simp [Nat.add_assoc]
  rw [same] at tail
  rw [← tail, bind_ok]
  constructor
  · rintro ⟨_, moved, rest⟩
    rw [head] at moved
    cases moved
    rw [List.length_append]
    exact rest
  · intro rest
    rw [List.length_append] at rest
    exact ⟨_, head, rest⟩

theorem restores_pair {read : Nat → Except Error (α × Nat)} {read' : Nat → Except Error (β × Nat)} {p q : Prop}
    (first : Restores data read bytes x p) (second : Restores data read' more y q) :
    Restores data (fun offset => read offset >>= fun parsed => read' parsed.2 >>= fun parsed' =>
      pure ((parsed.1, parsed'.1), parsed'.2)) (bytes ++ more) (x, y) (p ∧ q) := by
  intro before after shape next
  have head := first before (more ++ after) (by rw [shape]; simp)
  have tail := second (before ++ bytes) after (by rw [shape]; simp)
  constructor
  · intro parsed
    obtain ⟨⟨x', middle⟩, moved, rest⟩ := bind_ok.mp parsed
    obtain ⟨⟨y', last⟩, moved', pair⟩ := bind_ok.mp rest
    cases pair
    obtain ⟨isP, at_middle⟩ := (head middle).mp moved
    dsimp only at moved'
    rw [at_middle, ← List.length_append] at moved'
    obtain ⟨isQ, at_last⟩ := (tail last).mp moved'
    refine ⟨⟨isP, isQ⟩, ?_⟩
    rw [at_last, List.length_append, List.length_append, Nat.add_assoc]
  · rintro ⟨⟨isP, isQ⟩, same⟩
    have moved := (head _).mpr ⟨isP, rfl⟩
    have moved' := (tail _).mpr ⟨isQ, rfl⟩
    rw [List.length_append] at moved'
    apply bind_ok.mpr
    refine ⟨_, moved, bind_ok.mpr ⟨_, moved', ?_⟩⟩
    rw [same, List.length_append, Nat.add_assoc]
    rfl

theorem restores_times {read : Nat → Except Error (α × Nat)} {chunk : α → List Byte} {readable : α → Prop} {items : List α}
    (each : ∀ item ∈ items, Restores data read (chunk item) item (readable item)) :
    Restores data (readTimes read items.length) (items.flatMap chunk) items (∀ item ∈ items, readable item) := by
  induction items with
  | nil =>
    intro before after _ next
    simp [readTimes, pure, Except.pure, eq_comm]
  | cons item items ih =>
    have tail := ih (fun item' mem => each item' (List.mem_cons_of_mem item mem))
    have both := restores_pair (each item List.mem_cons_self) tail
    intro before after shape next
    have pair := both before after (by rw [shape]; simp) next
    rw [List.forall_mem_cons, List.flatMap_cons, ← pair, List.length_cons, readTimes]
    constructor
    · intro parsed
      obtain ⟨_, moved, rest⟩ := bind_ok.mp parsed
      obtain ⟨_, moved', joined⟩ := bind_ok.mp rest
      cases joined
      exact bind_ok.mpr ⟨_, moved, bind_ok.mpr ⟨_, moved', rfl⟩⟩
    · intro parsed
      obtain ⟨_, moved, rest⟩ := bind_ok.mp parsed
      obtain ⟨_, moved', joined⟩ := bind_ok.mp rest
      cases joined
      exact bind_ok.mpr ⟨_, moved, bind_ok.mpr ⟨_, moved', rfl⟩⟩

end Readers

end Framing
