import Mathlib.Data.List.Basic

/-!
Lists that are joined at a separator. Where the part before the separator, or the
part behind it, does not contain it, the parts can be told from the whole.
-/
namespace Separated
variable {α : Type*} {separator : α} {a b x y : List α}

theorem first_cut (free : separator ∉ a) (clear : separator ∉ b) (same : a ++ separator :: x = b ++ separator :: y) :
    a = b ∧ x = y := by
  induction a generalizing b with
  | nil =>
    cases b with
    | nil =>
      simp only [List.nil_append, List.cons.injEq, true_and] at same
      exact ⟨rfl, same⟩
    | cons c rest =>
      have head : separator = c := (List.cons.inj same).1
      exact absurd (List.mem_cons.mpr (.inl head)) clear
  | cons c rest ih =>
    cases b with
    | nil =>
      have head : c = separator := (List.cons.inj same).1
      exact absurd (List.mem_cons.mpr (.inl head.symm)) free
    | cons d later =>
      obtain ⟨head, tail⟩ := List.cons.inj same
      obtain ⟨parts, others⟩ := ih (fun mem => free (List.mem_cons_of_mem c mem))
        (fun mem => clear (List.mem_cons_of_mem d mem)) tail
      exact ⟨by rw [head, parts], others⟩

theorem last_cut (free : separator ∉ x) (clear : separator ∉ y) (same : a ++ separator :: x = b ++ separator :: y) :
    a = b ∧ x = y := by
  have turned : x.reverse ++ separator :: a.reverse = y.reverse ++ separator :: b.reverse := by
    simpa using congrArg List.reverse same
  obtain ⟨behind, before⟩ := first_cut (by simpa using free) (by simpa using clear) turned
  exact ⟨List.reverse_injective before, List.reverse_injective behind⟩

theorem mem_intercalate {between : List α} {parts : List (List α)} {c : α} (mem : c ∈ between.intercalate parts) :
    c ∈ between ∨ ∃ part ∈ parts, c ∈ part := by
  obtain ⟨piece, among, inside⟩ := List.mem_flatten.mp mem
  induction parts with
  | nil => cases among
  | cons first rest ih =>
    cases rest with
    | nil =>
      rw [List.mem_singleton.mp among] at inside
      exact .inr ⟨first, List.mem_singleton.mpr rfl, inside⟩
    | cons second later =>
      rw [List.intersperse_cons_cons] at among
      rcases List.mem_cons.mp among with here | further
      · exact .inr ⟨first, List.mem_cons_self, by rw [← here]; exact inside⟩
      · rcases List.mem_cons.mp further with here | others
        · exact .inl (by rw [← here]; exact inside)
        · rcases ih (List.mem_flatten.mpr ⟨piece, others, inside⟩) others with joint | ⟨part, listed, holds⟩
          · exact .inl joint
          · exact .inr ⟨part, List.mem_cons_of_mem first listed, holds⟩

end Separated
