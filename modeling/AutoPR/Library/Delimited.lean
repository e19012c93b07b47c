import Mathlib
import AutoPR.Library.Joined

/-! Texts joined by a separator of one character, with numbers among them. -/
namespace AutoPR.Delimited

variable {sep : String} {c : Char}

theorem intercalate_inj {xs ys : List String} (hsep : sep.toList = [c]) (hxs : xs ≠ [])
    (hys : ys ≠ []) (hx : ∀ part ∈ xs, c ∉ part.toList) (hy : ∀ part ∈ ys, c ∉ part.toList) :
    sep.intercalate xs = sep.intercalate ys ↔ xs = ys := by
  rw [← String.toList_inj, String.toList_intercalate, String.toList_intercalate, hsep,
    Joined.intercalate_inj (by simpa using hxs) (by simpa using hys)
      (List.forall_mem_map.mpr hx) (List.forall_mem_map.mpr hy)]
  exact (List.map_injective_iff.mpr fun _ _ => String.toList_inj.mp).eq_iff

theorem intercalate_last_inj (front : List String) (x y : String) :
    sep.intercalate (front ++ [x]) = sep.intercalate (front ++ [y]) ↔ x = y := by
  constructor
  · intro h
    cases front with
    | nil => simpa using h
    | cons first rest =>
      rw [String.intercalate_append_of_ne_nil (List.cons_ne_nil _ _) (List.cons_ne_nil _ _),
        String.intercalate_append_of_ne_nil (List.cons_ne_nil _ _) (List.cons_ne_nil _ _)] at h
      simpa using h
  · rintro rfl
    rfl

theorem mem_toList_toString {n : Int} {d : Char} (h : d ∈ (toString n).toList) :
    d = '-' ∨ d.isDigit := by
  have hdigits : ∀ m : Nat, d ∈ m.repr.toList → d.isDigit := fun m hm =>
    Nat.isDigit_of_mem_toDigits (b := 10) (n := m) (by decide) (by decide) (Nat.toList_repr ▸ hm)
  rw [Int.toString_eq_repr, Int.repr_eq_if] at h
  split at h
  · exact .inr (hdigits _ h)
  · rw [String.toList_append, List.mem_append] at h
    exact h.imp List.mem_singleton.mp (hdigits _)

theorem not_mem_toString (n : Int) (hminus : c ≠ '-') (hdigit : c.isDigit = false) :
    c ∉ (toString n).toList := by
  intro h
  obtain hc | hc := mem_toList_toString h
  · exact hminus hc
  · cases hdigit.symm.trans hc

theorem toString_inj {m n : Int} : toString m = toString n ↔ m = n := by
  rw [Int.toString_eq_repr, Int.toString_eq_repr, Int.repr_inj]

end AutoPR.Delimited
