import Mathlib.Logic.Function.Basic
import Mathlib.Order.Lattice

/-! A cached value with the time until which it may be used. -/
namespace AutoPR.Expiring

variable {α τ κ : Type _}

abbrev Slot (α τ : Type _) := Option (α × τ)

/-- The value, before its deadline. -/
def Slot.live [LinearOrder τ] (slot : Slot α τ) (now : τ) : Option α :=
  (slot.filter fun entry => now < entry.2).map (·.1)

theorem Slot.live_eq_some_iff [LinearOrder τ] {slot : Slot α τ} {now : τ} {value : α} :
    slot.live now = some value ↔ ∃ deadline, slot = some (value, deadline) ∧ now < deadline := by
  unfold Slot.live
  rw [Option.map_eq_some_iff]
  constructor
  · rintro ⟨⟨found, deadline⟩, hfound, rfl⟩
    obtain ⟨hslot, hlive⟩ := Option.filter_eq_some_iff.mp hfound
    exact ⟨deadline, hslot, of_decide_eq_true hlive⟩
  · rintro ⟨deadline, rfl, hlive⟩
    exact ⟨(value, deadline), by rw [Option.filter_some, if_pos (decide_eq_true hlive)], rfl⟩

/-- What holds of every cached value still does once a slot is written, if it holds of what is
written. -/
theorem forall_update [DecidableEq κ] {slots : κ → Slot α τ} {slot : Slot α τ} {key : κ}
    {P : κ → α → τ → Prop} (hold : ∀ k a d, slots k = some (a, d) → P k a d)
    (hnew : ∀ a d, slot = some (a, d) → P key a d) :
    ∀ k a d, Function.update slots key slot k = some (a, d) → P k a d := by
  intro k a d hslot
  by_cases hk : k = key
  · subst hk
    rw [Function.update_self] at hslot
    exact hnew a d hslot
  · rw [Function.update_of_ne hk] at hslot
    exact hold k a d hslot

end AutoPR.Expiring
