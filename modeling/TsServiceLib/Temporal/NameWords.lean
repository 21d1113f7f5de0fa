import TsServiceLib.Temporal.IdentityName

/-!
The words of a name, from the places of its characters alone. A letter or number
keeps its place, a separator ends a stretch, anything else does not count. A word
starts at the first letter of a stretch and at every hump, and a letter belongs to
the word that was started last. The loop that cuts a name finds these words.
-/
namespace TemporalIdentities
variable (t : CaseTables)

section Places
variable (text : List Char)

/-- The letters and numbers of a name. -/
def letterAt (i : Nat) : Bool := text[i]?.any fun c => !isSeparator t c && t.isLetterOrNumber c

/-- The letter or number before a place, back to the last separator. -/
def letterBefore (i : Nat) : Option Char :=
  ((text.take i).reverse.takeWhile fun c => !isSeparator t c).find? t.isLetterOrNumber

/-- A capital after what is no capital, or before a small letter. -/
def humpAt (i : Nat) (previous : Char) : Bool :=
  text[i]?.any (isUpper t) && (!isUpper t previous || text[i + 1]?.any (isLower t))

def startsAt (i : Nat) : Bool :=
  letterAt t text i && ((letterBefore t text i).isNone || (letterBefore t text i).any (humpAt t text i))

/-- How many words start before a place. -/
def startsBefore (i : Nat) : Nat := (List.range i).countP (startsAt t text)

def wordCount : Nat := startsBefore t text text.length

/-- The letters before a place that are in the word of a number, counted from 1. -/
def wordBefore (k n : Nat) : List Char :=
  ((List.range k).filter fun i => letterAt t text i && startsBefore t text (i + 1) == n).filterMap fun i => text[i]?

def wordAt (n : Nat) : List Char := wordBefore t text text.length n

end Places

/-- As many words, and each the same in lower case. -/
def SameWords (a b : String) : Prop :=
  wordCount t a.toList = wordCount t b.toList ∧
    ∀ n < wordCount t a.toList, t.toLowerCase (wordAt t a.toList (n + 1)) = t.toLowerCase (wordAt t b.toList (n + 1))

instance (a b : String) : Decidable (SameWords t a b) :=
  inferInstanceAs (Decidable (_ ∧ ∀ n < _, t.toLowerCase _ = t.toLowerCase _))

section Cutting
variable {t} {text : List Char} {k : Nat} {c : Char}

theorem startsBefore_succ (k : Nat) :
    startsBefore t text (k + 1) = startsBefore t text k + if startsAt t text k = true then 1 else 0 := by
  simp [startsBefore, List.range_succ, List.countP_append, List.countP_singleton]

theorem wordBefore_succ (k n : Nat) : wordBefore t text (k + 1) n = wordBefore t text k n ++
    if letterAt t text k = true ∧ startsBefore t text (k + 1) = n then text[k]?.toList else [] := by
  simp only [wordBefore, List.range_succ, List.filter_append, List.filterMap_append]
  congr 1
  by_cases here : letterAt t text k = true ∧ startsBefore t text (k + 1) = n
  · rw [if_pos here]
    cases found : text[k]? <;> simp [here.1, here.2, found]
  · have outside : (letterAt t text k && startsBefore t text (k + 1) == n) = false := by simpa using here
    rw [if_neg here, List.filter_singleton, outside]
    rfl

theorem startsBefore_mono {i k : Nat} (le : i ≤ k) : startsBefore t text i ≤ startsBefore t text k := by
  induction k, le using Nat.le_induction with
  | base => exact Nat.le_refl _
  | succ k _ ih =>
    rw [startsBefore_succ]
    omega

theorem wordBefore_later {n : Nat} (later : startsBefore t text k < n) : wordBefore t text k n = [] := by
  induction k with
  | zero => rfl
  | succ k ih =>
    have fewer := @startsBefore_mono t text k (k + 1) (Nat.le_succ k)
    rw [wordBefore_succ, ih (by omega), if_neg (by omega)]
    rfl

theorem letterBefore_succ (here : text[k]? = some c) : letterBefore t text (k + 1) =
    if isSeparator t c = true then none else if t.isLetterOrNumber c = true then some c else letterBefore t text k := by
  unfold letterBefore
  rw [List.take_add_one, here, Option.toList_some, List.reverse_append, List.reverse_singleton, List.singleton_append]
  by_cases separates : isSeparator t c = true
  · rw [List.takeWhile_cons_of_neg (by simp [separates]), if_pos separates]
    rfl
  · rw [List.takeWhile_cons_of_pos (by simpa using separates), if_neg separates, List.find?_cons]
    by_cases letter : t.isLetterOrNumber c = true
    · simp [letter]
    · simp [letter]

/-- Where the loop stands: the words it has, with the one in progress, are those of the
    characters read so far. -/
structure Cut (t : CaseTables) (text : List Char) (words : List (List Char)) (current : List Char) (k : Nat) : Prop where
  words : pushWord words current = (List.range (startsBefore t text k)).map fun n => wordBefore t text k (n + 1)
  last : current.getLast? = letterBefore t text k

theorem cut_skips {words : List (List Char)} {current next : List Char} (cut : Cut t text words current k)
    (dropped : letterAt t text k = false) (last : next.getLast? = letterBefore t text (k + 1))
    {put : List (List Char)} (same : pushWord put next = pushWord words current) : Cut t text put next (k + 1) := by
  have starts : startsAt t text k = false := by simp [startsAt, dropped]
  have still : startsBefore t text (k + 1) = startsBefore t text k := by simp [startsBefore_succ, starts]
  refine ⟨?_, last⟩
  rw [same, cut.words, still]
  refine List.map_congr_left fun n _ => ?_
  rw [wordBefore_succ, if_neg (by simp [dropped]), List.append_nil]

theorem cut_starts {words : List (List Char)} {current : List Char} (cut : Cut t text words current k)
    (here : text[k]? = some c) (letter : letterAt t text k = true) (starts : startsAt t text k = true)
    (last : letterBefore t text (k + 1) = some c) : Cut t text (pushWord words current) [c] (k + 1) := by
  have more : startsBefore t text (k + 1) = startsBefore t text k + 1 := by simp [startsBefore_succ, starts]
  refine ⟨?_, last.symm⟩
  rw [pushWord, if_neg (List.cons_ne_nil c []), more, List.range_succ, List.map_append, cut.words]
  congr 1
  · refine List.map_congr_left fun n mem => ?_
    have small := List.mem_range.mp mem
    rw [wordBefore_succ, if_neg (by omega), List.append_nil]
  · rw [List.map_singleton, wordBefore_succ, wordBefore_later (by omega), if_pos ⟨letter, more⟩, here]
    rfl

theorem cut_continues {words : List (List Char)} {current : List Char} (cut : Cut t text words current k)
    (some_word : current ≠ []) (here : text[k]? = some c) (letter : letterAt t text k = true) (continues : startsAt t text k = false)
    (last : letterBefore t text (k + 1) = some c) : Cut t text words (current ++ [c]) (k + 1) := by
  have still : startsBefore t text (k + 1) = startsBefore t text k := by simp [startsBefore_succ, continues]
  have whole := cut.words
  rw [pushWord, if_neg some_word] at whole
  refine ⟨?_, by rw [last, List.getLast?_append]; rfl⟩
  rw [pushWord, if_neg (by simp), still]
  cases count : startsBefore t text k with
  | zero =>
    rw [count] at whole
    simp at whole
  | succ m =>
    rw [count, List.range_succ, List.map_append, List.map_singleton] at whole
    obtain ⟨before, now⟩ := List.append_inj' whole rfl
    rw [List.range_succ, List.map_append, List.map_singleton]
    congr 1
    · rw [before]
      refine List.map_congr_left fun n mem => ?_
      have small := List.mem_range.mp mem
      rw [wordBefore_succ, if_neg (by omega), List.append_nil]
    · have same := List.cons.inj now
      rw [same.1, wordBefore_succ, if_pos ⟨letter, by omega⟩, here]
      rfl

/-- The test of the loop is the one of the places. -/
theorem startsWord_iff {words : List (List Char)} {current : List Char} (cut : Cut t text words current k)
    (here : text[k]? = some c) (letter : letterAt t text k = true) (some_word : current ≠ []) :
    startsWord t current c text[k + 1]? = startsAt t text k := by
  have last := cut.last
  unfold startsWord startsAt
  rw [letter, ← last]
  cases previous : current.getLast? with
  | none => exact absurd (List.getLast?_eq_none_iff.mp previous) some_word
  | some p => simp [humpAt, here]

theorem cutWords_cut {rest : List Char} (behind : text.drop k = rest) (bound : k ≤ text.length) {words : List (List Char)} {current : List Char}
    (cut : Cut t text words current k) :
    cutWords t words current rest = (List.range (wordCount t text)).map fun n => wordAt t text (n + 1) := by
  induction rest generalizing k words current with
  | nil =>
    have all : text.length ≤ k := List.drop_eq_nil_iff.mp behind
    obtain rfl : k = text.length := Nat.le_antisymm bound all
    exact cut.words
  | cons c rest ih =>
    have here : text[k]? = some c := by
      rw [← List.head?_drop, behind]
      rfl
    have reach : k + 1 ≤ text.length := (List.getElem?_eq_some_iff.mp here).1
    have next : text.drop (k + 1) = rest := by
      rw [← List.tail_drop, behind]
      rfl
    have after : rest.head? = text[k + 1]? := by
      rw [← next, List.head?_drop]
    have last := letterBefore_succ (t := t) here
    unfold cutWords
    rw [after]
    by_cases separates : isSeparator t c = true
    · rw [if_pos separates]
      rw [if_pos separates] at last
      refine ih next reach (cut_skips cut ?_ (by rw [last]; rfl) ?_)
      · simp [letterAt, here, separates]
      · simp [pushWord]
    · rw [if_neg separates] at last ⊢
      by_cases letter : t.isLetterOrNumber c = true
      · rw [if_pos letter] at last
        have stays : letterAt t text k = true := by simp [letterAt, here, separates, letter]
        rw [if_neg (by simp [letter])]
        by_cases some_word : current = []
        · subst some_word
          have none_before := cut.last
          have starts : startsAt t text k = true := by simp [startsAt, stays, ← none_before]
          rw [if_neg (by simp [startsWord])]
          exact ih next reach (cut_starts cut here stays starts last)
        · rw [startsWord_iff cut here stays some_word]
          by_cases starts : startsAt t text k = true
          · rw [if_pos starts]
            exact ih next reach (cut_starts cut here stays starts last)
          · rw [if_neg starts]
            exact ih next reach (cut_continues cut some_word here stays (by simpa using starts) last)
      · rw [if_neg letter] at last
        rw [if_pos (by simpa using letter)]
        refine ih next reach (cut_skips cut ?_ ?_ rfl)
        · simp [letterAt, here, letter]
        · rw [last]
          exact cut.last

theorem wordsOf_eq (value : String) : wordsOf t value =
    (List.range (wordCount t value.toList)).map fun n => wordAt t value.toList (n + 1) :=
  @cutWords_cut t value.toList 0 value.toList rfl (Nat.zero_le _) [] [] ⟨rfl, rfl⟩

theorem sameWords_iff (a b : String) : SameWords t a b ↔ loweredWords t a = loweredWords t b := by
  unfold loweredWords
  rw [wordsOf_eq, wordsOf_eq, List.map_map, List.map_map]
  constructor
  · rintro ⟨count, words⟩
    rw [← count]
    exact List.map_congr_left fun n mem => words n (List.mem_range.mp mem)
  · intro same
    have count : wordCount t a.toList = wordCount t b.toList := by
      simpa using congrArg List.length same
    refine ⟨count, ?_⟩
    intro n inside
    rw [← count] at same
    exact List.map_inj_left.mp same n (List.mem_range.mpr inside)

/-- Names come to one identity exactly if they have the same words up to case. -/
theorem temporalIdentityName_eq_iff (lawful : t.Lawful) (a b : String) :
    temporalIdentityName t a = temporalIdentityName t b ↔ SameWords t a b := by
  rw [temporalIdentityName_eq lawful, sameWords_iff]

example : SameWords asciiTables "orderCreated" "order_*created" := by decide +kernel

end Cutting

end TemporalIdentities
