import Mathlib.Algebra.BigOperators.Group.List.Basic
import Mathlib.Algebra.GroupWithZero.Nat

/-! Lists joined by a separator of one element: how long the result is, what it ends
with, and when the pieces can be read back. -/
namespace AutoPR.Joined

variable {α : Type _} {sep : α}

@[simp] theorem length_intercalate (parts : List (List α)) :
    ([sep].intercalate parts).length = (parts.map List.length).sum + (parts.length - 1) := by
  induction parts with
  | nil => rfl
  | cons part parts ih =>
    cases parts with
    | nil => simp
    | cons next rest =>
      rw [List.intercalate_cons_cons, List.length_append, ih]
      simp only [List.length_append, List.map_cons, List.sum_cons, List.length_cons,
        List.length_nil]
      omega

theorem suffix_intercalate (parts : List (List α)) (last : List α) :
    last <:+ [sep].intercalate (parts ++ [last]) := by
  induction parts with
  | nil => simp
  | cons part parts ih =>
    rw [List.cons_append, List.intercalate_cons_of_ne_nil (by simp)]
    exact ih.trans (List.suffix_append _ _)

theorem intercalate_inj [BEq α] [LawfulBEq α] {xs ys : List (List α)} (hxs : xs ≠ [])
    (hys : ys ≠ []) (hx : ∀ part ∈ xs, sep ∉ part) (hy : ∀ part ∈ ys, sep ∉ part) :
    [sep].intercalate xs = [sep].intercalate ys ↔ xs = ys := by
  constructor
  · intro h
    have hsplit := congrArg (List.splitOn sep) h
    rwa [List.splitOn_intercalate _ hx hxs, List.splitOn_intercalate _ hy hys] at hsplit
  · exact congrArg _

theorem splitOn_intercalate [BEq α] [ReflBEq α] {parts : List (List α)} (hne : parts ≠ []) :
    ([sep].intercalate parts).splitOn sep = parts.flatMap (·.splitOn sep) := by
  induction parts with
  | nil => exact absurd rfl hne
  | cons part rest ih =>
    cases rest with
    | nil => simp
    | cons next more =>
      rw [List.intercalate_cons_cons, List.append_assoc, List.singleton_append,
        List.splitOn_append_cons_self, ih (List.cons_ne_nil _ _)]
      rfl

theorem mem_splitOn [BEq α] [LawfulBEq α] {whole piece : List α} {c : α}
    (hpiece : piece ∈ whole.splitOn sep) (hc : c ∈ piece) : c ≠ sep ∧ c ∈ whole := by
  induction whole generalizing piece with
  | nil =>
    rw [List.splitOn_nil, List.mem_singleton] at hpiece
    rw [hpiece] at hc
    cases hc
  | cons d rest ih =>
    rw [List.splitOn_cons_eq_if_modifyHead] at hpiece
    split at hpiece
    · obtain rfl | hpiece := List.mem_cons.mp hpiece
      · cases hc
      · obtain ⟨hne, hmem⟩ := ih hpiece hc
        exact ⟨hne, List.mem_cons_of_mem d hmem⟩
    · rename_i hd
      obtain ⟨first, more, hsplit⟩ := List.exists_cons_of_ne_nil (List.splitOn_ne_nil sep rest)
      rw [hsplit, List.modifyHead_cons, List.mem_cons] at hpiece
      obtain rfl | hpiece := hpiece
      · obtain rfl | hc := List.mem_cons.mp hc
        · exact ⟨fun heq => hd (beq_iff_eq.mpr heq), List.mem_cons_self⟩
        · obtain ⟨hne, hmem⟩ := ih (hsplit ▸ List.mem_cons_self) hc
          exact ⟨hne, List.mem_cons_of_mem d hmem⟩
      · obtain ⟨hne, hmem⟩ := ih (hsplit ▸ List.mem_cons_of_mem first hpiece) hc
        exact ⟨hne, List.mem_cons_of_mem d hmem⟩

end AutoPR.Joined
