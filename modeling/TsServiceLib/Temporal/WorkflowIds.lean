import Mathlib
import TsServiceLib.Library.Separated
import TsServiceLib.Temporal.IdentityName

/-!
What can be read from the names and ids in Temporal. An identity has no slash and
no dot in it, so the fixed parts around it can be found again; what stands behind
them is the message id, percent-encoded, which can be decoded.
-/
namespace TemporalIdentities

section Identity
variable {t : CaseTables}

/-- The characters of an identity are those of its words, and underscores. -/
theorem identity_free (lawful : t.Lawful) (value : String) {mark : Char} (separates : isSeparator t mark = true)
    (other : mark ≠ '_') : mark ∉ (temporalIdentityName t value).toList := by
  intro mem
  rw [temporalIdentityName, String.toList_ofList] at mem
  rcases Separated.mem_intercalate mem with joint | ⟨word, listed, inside⟩
  · exact other (List.mem_singleton.mp joint)
  · obtain ⟨original, here, rfl⟩ := List.mem_map.mp listed
    obtain ⟨some_word, letters⟩ := wordsOf_clean value original here
    have apart := (lawful original some_word letters).2 mark inside
    rw [separates] at apart
    cases apart

theorem slash_free (lawful : t.Lawful) (value : String) : '/' ∉ (temporalIdentityName t value).toList :=
  identity_free lawful value (by simp [isSeparator]) (by decide)

theorem dot_free (lawful : t.Lawful) (value : String) : '.' ∉ (temporalIdentityName t value).toList :=
  identity_free lawful value (by simp [isSeparator]) (by decide)

theorem names_of_parts {mark : Char} {fixed : List Char} {first second first' second' : String} {rest rest' : List Char}
    (free : ∀ name ∈ [first, second, first', second'], mark ∉ name.toList)
    (same : first.toList ++ mark :: (fixed ++ mark :: (second.toList ++ mark :: rest)) =
      first'.toList ++ mark :: (fixed ++ mark :: (second'.toList ++ mark :: rest'))) :
    first = first' ∧ second = second' ∧ rest = rest' := by
  obtain ⟨connector, behind⟩ := Separated.first_cut (free first (by simp)) (free first' (by simp)) same
  have later := (List.cons.inj (List.append_cancel_left behind)).2
  obtain ⟨endpoint, tail⟩ := Separated.first_cut (free second (by simp)) (free second' (by simp)) later
  exact ⟨String.toList_inj.mp connector, String.toList_inj.mp endpoint, tail⟩

end Identity

section Percent

def hexValue (c : Char) : Nat := if c.toNat < 58 then c.toNat - 48 else c.toNat - 55

/-- The bytes that a percent-encoded text stands for. -/
def decodePercent : List Char → List UInt8
  | '%' :: high :: low :: rest => UInt8.ofNat (16 * hexValue high + hexValue low) :: decodePercent rest
  | c :: rest => UInt8.ofNat c.toNat :: decodePercent rest
  | [] => []

theorem hexValue_hexDigit {n : Nat} (digit : n < 16) : hexValue (hexDigit n) = n := by
  have all : ∀ m < 16, hexValue (hexDigit m) = m := by decide
  exact all n digit

theorem decode_percentEncoded {byte : Nat} (small : byte < 256) (rest : List Char) :
    decodePercent (percentEncoded byte ++ rest) = UInt8.ofNat byte :: decodePercent rest := by
  have high : hexValue (hexDigit (byte / 16)) = byte / 16 := hexValue_hexDigit (by omega)
  have low : hexValue (hexDigit (byte % 16)) = byte % 16 := hexValue_hexDigit (by omega)
  have whole : 16 * (byte / 16) + byte % 16 = byte := by omega
  rw [percentEncoded, List.cons_append, List.cons_append, List.cons_append, List.nil_append, decodePercent, high, low, whole]

theorem decode_bytes (bytes : List UInt8) (rest : List Char) :
    decodePercent ((bytes.flatMap fun byte => percentEncoded byte.toNat) ++ rest) = bytes ++ decodePercent rest := by
  induction bytes with
  | nil => rfl
  | cons byte later ih =>
    rw [List.flatMap_cons, List.append_assoc, decode_percentEncoded byte.toNat_lt, ih, UInt8.ofNat_toNat, List.cons_append]

theorem decode_other {c : Char} (other : c ≠ '%') (rest : List Char) :
    decodePercent (c :: rest) = UInt8.ofNat c.toNat :: decodePercent rest := by
  rw [decodePercent]
  intro high low later same
  exact absurd same other

theorem alphanum_ascii {c : Char} (kept : c.isAlphanum = true) : c.toNat < 128 := by
  simp only [Char.isAlphanum, Char.isAlpha, Char.isUpper, Char.isLower, Char.isDigit, Bool.or_eq_true, Bool.and_eq_true,
    decide_eq_true_eq, ge_iff_le, UInt32.le_iff_toNat_le] at kept
  have value : c.toNat = c.val.toNat := rfl
  rw [value]
  simp at kept
  omega

/-- The characters that the first encoding lets through are ASCII. -/
theorem unreserved_ascii {c : Char} (kept : isUnreserved c = true) : c.toNat < 128 := by
  simp only [isUnreserved, isReplaced, Bool.or_eq_true, List.contains_iff_mem, List.mem_cons, List.not_mem_nil, or_false] at kept
  rcases kept with (letter | mark) | replaced
  · exact alphanum_ascii letter
  · rcases mark with same | same | same | same <;> rw [same] <;> decide
  · omega

theorem utf8_ascii {c : Char} (small : c.toNat < 128) : Unicode.utf8 [c] = [UInt8.ofNat c.toNat] := by
  have low : c.val.toNat ≤ 0x7f := Nat.le_of_lt_succ small
  rw [Unicode.utf8, List.flatMap_singleton, String.utf8EncodeChar, if_pos low]
  rfl

/-- What becomes of one character in the end. -/
def opaqueChar (c : Char) : List Char :=
  (if isUnreserved c then [c] else (Unicode.utf8 [c]).flatMap fun byte => percentEncoded byte.toNat).flatMap
    fun d => if isReplaced d then percentEncoded d.toNat else [d]

theorem opaqueId_eq (messageId : String) : (opaqueId messageId).toList = messageId.toList.flatMap opaqueChar := by
  rw [opaqueId, String.toList_ofList, encodeURIComponent, List.flatMap_assoc]
  rfl

theorem percentEncoded_kept {byte : Nat} (small : byte < 256) : ∀ d ∈ percentEncoded byte, isReplaced d = false := by
  have digits : ∀ m < 16, isReplaced (hexDigit m) = false := by decide
  intro d mem
  simp only [percentEncoded, List.mem_cons, List.not_mem_nil, or_false] at mem
  rcases mem with same | same | same
  · rw [same]
    decide
  · rw [same]
    exact digits _ (by omega)
  · rw [same]
    exact digits _ (by omega)

theorem flatMap_kept {f : Char → List Char} {text : List Char} (kept : ∀ c ∈ text, f c = [c]) : text.flatMap f = text := by
  induction text with
  | nil => rfl
  | cons c rest ih =>
    rw [List.flatMap_cons, kept c List.mem_cons_self, ih fun d mem => kept d (List.mem_cons_of_mem c mem)]
    rfl

theorem decode_opaqueChar (c : Char) (rest : List Char) :
    decodePercent (opaqueChar c ++ rest) = Unicode.utf8 [c] ++ decodePercent rest := by
  unfold opaqueChar
  split
  · rename_i kept
    have ascii := unreserved_ascii kept
    rw [List.flatMap_singleton, utf8_ascii ascii]
    split
    · exact decode_percentEncoded (by omega) rest
    · apply decode_other
      rintro rfl
      revert kept
      decide
  · have kept : ∀ d ∈ (Unicode.utf8 [c]).flatMap fun byte => percentEncoded byte.toNat, isReplaced d = false := by
      intro d mem
      obtain ⟨byte, _, inside⟩ := List.mem_flatMap.mp mem
      exact percentEncoded_kept byte.toNat_lt d inside
    have same : ((Unicode.utf8 [c]).flatMap fun byte => percentEncoded byte.toNat).flatMap
        (fun d => if isReplaced d then percentEncoded d.toNat else [d]) =
        (Unicode.utf8 [c]).flatMap fun byte => percentEncoded byte.toNat := by
      apply flatMap_kept
      intro d mem
      simp [kept d mem]
    rw [same]
    exact decode_bytes _ rest

theorem decode_opaque (text rest : List Char) :
    decodePercent (text.flatMap opaqueChar ++ rest) = Unicode.utf8 text ++ decodePercent rest := by
  induction text with
  | nil => rfl
  | cons c later ih =>
    rw [List.flatMap_cons, List.append_assoc, decode_opaqueChar, ih]
    simp [Unicode.utf8]

theorem opaqueId_injective {messageId other : String} (same : opaqueId messageId = opaqueId other) : messageId = other := by
  have encoded := congrArg String.toList same
  rw [opaqueId_eq, opaqueId_eq] at encoded
  have bytes := decode_opaque messageId.toList []
  rw [encoded, decode_opaque, List.append_cancel_right_eq] at bytes
  have text := Unicode.utf8Decode_utf8 other.toList
  rw [bytes, Unicode.utf8Decode_utf8] at text
  exact String.toList_inj.mp (Option.some.inj text)

end Percent

section Parts
variable (t : CaseTables) (connector endpoint messageId : String)

theorem activityType_parts : (temporalEndpointActivityType t connector endpoint).toList =
    (temporalIdentityName t connector).toList ++ '.' :: ("endpoint".toList ++ '.' ::
      ((temporalIdentityName t endpoint).toList ++ '.' :: "v1".toList)) := by
  simp [temporalEndpointActivityType, String.toList_append]

theorem workflowType_parts : (temporalDirectWorkflowType t connector endpoint).toList =
    (temporalIdentityName t connector).toList ++ '.' :: ("endpoint".toList ++ '.' ::
      ((temporalIdentityName t endpoint).toList ++ '.' :: "workflow.v1".toList)) := by
  simp [temporalDirectWorkflowType, String.toList_append]

theorem workflowId_parts : (temporalEndpointWorkflowId t connector endpoint messageId).toList =
    (temporalIdentityName t connector).toList ++ '/' :: ("endpoint".toList ++ '/' ::
      ((temporalIdentityName t endpoint).toList ++ '/' :: (opaqueId messageId).toList)) := by
  simp [temporalEndpointWorkflowId, String.toList_append]

end Parts

/- The names and the message id are determined by the workflow id, the names by the
   types, and no type of an activity is a type of a workflow. -/
theorem workflowId_parseable {t : CaseTables} (lawful : t.Lawful) (connector endpoint messageId connector' endpoint' messageId' : String) :
    (temporalEndpointWorkflowId t connector endpoint messageId = temporalEndpointWorkflowId t connector' endpoint' messageId' ↔
      temporalIdentityName t connector = temporalIdentityName t connector' ∧
      temporalIdentityName t endpoint = temporalIdentityName t endpoint' ∧ messageId = messageId') ∧
    (temporalEndpointActivityType t connector endpoint = temporalEndpointActivityType t connector' endpoint' ↔
      temporalIdentityName t connector = temporalIdentityName t connector' ∧
      temporalIdentityName t endpoint = temporalIdentityName t endpoint') ∧
    (temporalDirectWorkflowType t connector endpoint = temporalDirectWorkflowType t connector' endpoint' ↔
      temporalIdentityName t connector = temporalIdentityName t connector' ∧
      temporalIdentityName t endpoint = temporalIdentityName t endpoint') ∧
    temporalEndpointActivityType t connector endpoint ≠ temporalDirectWorkflowType t connector' endpoint' := by
  have slashes : ∀ name ∈ [temporalIdentityName t connector, temporalIdentityName t endpoint,
      temporalIdentityName t connector', temporalIdentityName t endpoint'], '/' ∉ name.toList := by
    simp only [List.forall_mem_cons]
    exact ⟨slash_free lawful _, slash_free lawful _, slash_free lawful _, slash_free lawful _, by simp⟩
  have dots : ∀ name ∈ [temporalIdentityName t connector, temporalIdentityName t endpoint,
      temporalIdentityName t connector', temporalIdentityName t endpoint'], '.' ∉ name.toList := by
    simp only [List.forall_mem_cons]
    exact ⟨dot_free lawful _, dot_free lawful _, dot_free lawful _, dot_free lawful _, by simp⟩
  refine ⟨⟨?_, ?_⟩, ⟨?_, ?_⟩, ⟨?_, ?_⟩, ?_⟩
  · intro same
    have texts := congrArg String.toList same
    rw [workflowId_parts, workflowId_parts] at texts
    obtain ⟨first, second, encoded⟩ := names_of_parts slashes texts
    exact ⟨first, second, opaqueId_injective (String.toList_inj.mp encoded)⟩
  · rintro ⟨first, second, third⟩
    rw [temporalEndpointWorkflowId, temporalEndpointWorkflowId, first, second, third]
  · intro same
    have texts := congrArg String.toList same
    rw [activityType_parts, activityType_parts] at texts
    obtain ⟨first, second, _⟩ := names_of_parts dots texts
    exact ⟨first, second⟩
  · rintro ⟨first, second⟩
    rw [temporalEndpointActivityType, temporalEndpointActivityType, first, second]
  · intro same
    have texts := congrArg String.toList same
    rw [workflowType_parts, workflowType_parts] at texts
    obtain ⟨first, second, _⟩ := names_of_parts dots texts
    exact ⟨first, second⟩
  · rintro ⟨first, second⟩
    rw [temporalDirectWorkflowType, temporalDirectWorkflowType, first, second]
  · intro same
    have texts := congrArg String.toList same
    rw [activityType_parts, workflowType_parts] at texts
    obtain ⟨_, _, behind⟩ := names_of_parts dots texts
    revert behind
    decide

theorem workflowId_parseable_hostile :
    temporalEndpointWorkflowId asciiTables "Orders" "a/b" "c/d" ≠ temporalEndpointWorkflowId asciiTables "Orders" "a" "b/c%2Fd" ∧
    temporalEndpointActivityType asciiTables "Orders" "Created.workflow" ≠
      temporalDirectWorkflowType asciiTables "Orders" "Created" := by
  obtain ⟨ids, _, _, types⟩ := workflowId_parseable asciiTables_lawful "Orders" "a/b" "c/d" "Orders" "a" "b/c%2Fd"
  obtain ⟨_, _, _, apart⟩ := workflowId_parseable asciiTables_lawful "Orders" "Created.workflow" "" "Orders" "Created" ""
  constructor
  · intro same
    obtain ⟨_, _, third⟩ := ids.mp same
    revert third
    decide
  · exact apart

end TemporalIdentities
