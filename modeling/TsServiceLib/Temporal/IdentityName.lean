import TsServiceLib.Library.Unicode

/-!
The names that an endpoint has in Temporal. A configured name is cut into
words, at separators and at the humps of camel case; characters that are
neither letters nor numbers are dropped, and the words are joined in lower
case. What Unicode says of a character is given.
-/
namespace TemporalIdentities

/-- The character classes of the regular expressions and the case mappings of strings. -/
structure CaseTables where
  isSpace : Char → Bool
  isLetterOrNumber : Char → Bool
  toUpperCase : List Char → List Char
  toLowerCase : List Char → List Char

variable (t : CaseTables)

def isSeparator (c : Char) : Bool := t.isSpace c || ['_', '-', '/', '.'].contains c

/-- Unicode maps a word of letters and numbers to a word without separators. -/
def CaseTables.Lawful : Prop :=
  ∀ word : List Char, word ≠ [] → (∀ c ∈ word, t.isLetterOrNumber c = true) →
    t.toLowerCase word ≠ [] ∧ ∀ c ∈ t.toLowerCase word, isSeparator t c = false

def isUpper (c : Char) : Bool := t.toUpperCase [c] == [c] && t.toLowerCase [c] != [c]

def isLower (c : Char) : Bool := t.toLowerCase [c] == [c] && t.toUpperCase [c] != [c]

/-- A capital starts a word after a character that is no capital, and before a small letter. -/
def startsWord (current : List Char) (c : Char) (next : Option Char) : Bool :=
  match current.getLast? with
  | none => false
  | some previous => isUpper t c && (!isUpper t previous || next.any (isLower t))

/-- The word in progress is put with the others. -/
def pushWord (words : List (List Char)) (current : List Char) : List (List Char) :=
  if current = [] then words else words ++ [current]

/-- The loop over the characters. -/
def cutWords (words : List (List Char)) (current : List Char) : List Char → List (List Char)
  | [] => pushWord words current
  | c :: rest =>
    if isSeparator t c then cutWords (pushWord words current) [] rest
    else if !t.isLetterOrNumber c then cutWords words current rest
    else if startsWord t current c rest.head? then cutWords (pushWord words current) [c] rest
    else cutWords words (current ++ [c]) rest

def wordsOf (value : String) : List (List Char) := cutWords t [] [] value.toList

def loweredWords (value : String) : List (List Char) := (wordsOf t value).map t.toLowerCase

def temporalIdentityName (value : String) : String := String.ofList (['_'].intercalate (loweredWords t value))

def temporalEndpointActivityType (connectorName endpointName : String) : String :=
  temporalIdentityName t connectorName ++ ".endpoint." ++ temporalIdentityName t endpointName ++ ".v1"

def temporalDirectWorkflowType (connectorName endpointName : String) : String :=
  temporalIdentityName t connectorName ++ ".endpoint." ++ temporalIdentityName t endpointName ++ ".workflow.v1"

def hexDigit (n : Nat) : Char := if n < 10 then Char.ofNat (48 + n) else Char.ofNat (55 + n)

def percentEncoded (byte : Nat) : List Char := ['%', hexDigit (byte / 16), hexDigit (byte % 16)]

/-- The marks that `encodeURIComponent` leaves as they are and the code replaces. -/
def isReplaced (c : Char) : Bool := [0x21, 0x27, 0x28, 0x29, 0x2A].contains c.toNat

def isUnreserved (c : Char) : Bool := c.isAlphanum || ['-', '_', '.', '~'].contains c || isReplaced c

def encodeURIComponent (text : List Char) : List Char :=
  text.flatMap fun c =>
    if isUnreserved c then [c] else (Unicode.utf8 [c]).flatMap fun byte => percentEncoded byte.toNat

def opaqueId (messageId : String) : String :=
  String.ofList ((encodeURIComponent messageId.toList).flatMap fun c => if isReplaced c then percentEncoded c.toNat else [c])

def temporalEndpointWorkflowId (connectorName endpointName messageId : String) : String :=
  temporalIdentityName t connectorName ++ "/endpoint/" ++ temporalIdentityName t endpointName ++ "/" ++ opaqueId messageId

section Words
variable {t}

/-- Words are not empty and have only letters and numbers. -/
def Clean (t : CaseTables) (words : List (List Char)) : Prop :=
  ∀ word ∈ words, word ≠ [] ∧ ∀ c ∈ word, t.isLetterOrNumber c = true

theorem pushWord_clean {words : List (List Char)} {current : List Char} (clean : Clean t words)
    (kept : ∀ c ∈ current, t.isLetterOrNumber c = true) : Clean t (pushWord words current) := by
  unfold pushWord
  split
  · exact clean
  · rename_i some_word
    intro word mem
    rcases List.mem_append.mp mem with before | new
    · exact clean word before
    · cases List.mem_singleton.mp new
      exact ⟨some_word, kept⟩

theorem cutWords_clean {words : List (List Char)} {current rest : List Char} (clean : Clean t words)
    (kept : ∀ c ∈ current, t.isLetterOrNumber c = true) : Clean t (cutWords t words current rest) := by
  induction rest generalizing words current with
  | nil => exact pushWord_clean clean kept
  | cons c rest ih =>
    unfold cutWords
    split
    · exact ih (pushWord_clean clean kept) (by simp)
    · split
      · exact ih clean kept
      · rename_i letter
        have letter : t.isLetterOrNumber c = true := by simpa using letter
        split
        · exact ih (pushWord_clean clean kept) (by simpa using letter)
        · apply ih clean
          intro d mem
          rcases List.mem_append.mp mem with before | last
          · exact kept d before
          · rwa [List.mem_singleton.mp last]

theorem wordsOf_clean (value : String) : Clean t (wordsOf t value) :=
  cutWords_clean (by intro word mem; cases mem) (by simp)

theorem joined_words {words others : List (List Char)} (joined : ['_'].intercalate words = ['_'].intercalate others)
    (clean : ∀ word ∈ words, word ≠ [] ∧ '_' ∉ word) (tidy : ∀ word ∈ others, word ≠ [] ∧ '_' ∉ word) : words = others := by
  have blank : ∀ {list : List (List Char)}, (∀ word ∈ list, word ≠ [] ∧ '_' ∉ word) → ['_'].intercalate list = [] → list = [] := by
    intro list good nothing
    cases list with
    | nil => rfl
    | cons word rest =>
      have back := List.splitOn_intercalate '_' (fun w mem => (good w mem).2) (List.cons_ne_nil word rest)
      rw [nothing] at back
      have single : [[]] = word :: rest := back
      cases single
      exact absurd rfl (good [] (List.mem_singleton.mpr rfl)).1
  by_cases none : words = []
  · subst none
    exact (blank tidy joined.symm).symm
  · have filled : others ≠ [] := by
      intro empty
      subst empty
      exact none (blank clean joined)
    rw [← List.splitOn_intercalate '_' (fun w mem => (clean w mem).2) none, joined,
      List.splitOn_intercalate '_' (fun w mem => (tidy w mem).2) filled]

theorem loweredWords_clean (lawful : t.Lawful) (value : String) : ∀ word ∈ loweredWords t value, word ≠ [] ∧ '_' ∉ word := by
  intro word mem
  obtain ⟨original, here, rfl⟩ := List.mem_map.mp mem
  obtain ⟨some_word, letters⟩ := wordsOf_clean value original here
  obtain ⟨nonempty, separate⟩ := lawful original some_word letters
  refine ⟨nonempty, ?_⟩
  intro underscore
  have free := separate '_' underscore
  simp [isSeparator] at free

/-- Two names come to the same identity exactly if they have the same words up to case. -/
theorem temporalIdentityName_eq (lawful : t.Lawful) (a b : String) :
    temporalIdentityName t a = temporalIdentityName t b ↔ loweredWords t a = loweredWords t b := by
  constructor
  · intro same
    have joined := congrArg String.toList same
    simp only [temporalIdentityName, String.toList_ofList] at joined
    exact joined_words joined (loweredWords_clean lawful a) (loweredWords_clean lawful b)
  · intro same
    rw [temporalIdentityName, temporalIdentityName, same]

end Words

/-- Unicode restricted to ASCII. -/
def asciiTables : CaseTables where
  isSpace := Char.isWhitespace
  isLetterOrNumber := Char.isAlphanum
  toUpperCase := List.map Char.toUpper
  toLowerCase := List.map Char.toLower

theorem toLower_alphanum {c : Char} (kept : c.isAlphanum = true) : c.toLower.isAlphanum = true := by
  have spelled : ∀ d : Char, d.isAlphanum =
      (decide (d.val ≥ 'A'.val ∧ d.val ≤ 'Z'.val) || (decide (d.val ≥ 'a'.val) && decide (d.val ≤ 'z'.val)) ||
        (decide (d.val ≥ '0'.val) && decide (d.val ≤ '9'.val))) := fun _ => rfl
  simp only [spelled, Bool.or_eq_true, Bool.and_eq_true, decide_eq_true_eq] at kept ⊢
  unfold Char.toLower
  split
  · rename_i capital
    obtain ⟨low, high⟩ := capital
    left
    right
    simp only [ge_iff_le, UInt32.le_iff_toNat_le, UInt32.toNat_add] at low high ⊢
    simp at low high ⊢
    omega
  · exact kept

theorem asciiTables_lawful : asciiTables.Lawful := by
  intro word some_word letters
  constructor
  · simpa [asciiTables] using some_word
  · intro c mem
    obtain ⟨d, inside, rfl⟩ := List.mem_map.mp mem
    have kept := toLower_alphanum (letters d inside)
    have other : ∀ mark : Char, mark.isAlphanum = false → d.toLower ≠ mark := by
      intro mark no same
      rw [same, no] at kept
      cases kept
    simp only [isSeparator, asciiTables, Char.isWhitespace, List.contains_cons, List.contains_nil, Bool.or_eq_false_iff,
      decide_eq_false_iff_not, beq_eq_false_iff_ne, and_true]
    refine ⟨⟨⟨⟨?_, ?_⟩, ?_⟩, ?_⟩, ?_, ?_, ?_, ?_⟩ <;> exact other _ (by decide)

example : temporalIdentityName asciiTables "OrderAPI v2" = "order_api_v2" := by decide +kernel

end TemporalIdentities
