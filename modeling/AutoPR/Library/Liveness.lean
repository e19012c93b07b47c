import Mathlib.Data.Nat.Notation

/-! Goals that are reached whatever the environment does. -/
namespace AutoPR.Liveness

/-- The goal is here; or one can go on in every environment, and every way on leads to it. -/
inductive Inevitable {ε σ : Type*} (next : ε → σ → σ → Prop) (goal : σ → Prop) : σ → Prop where
  | now {s : σ} (h : goal s) : Inevitable next goal s
  | later {s : σ} (hon : ∀ e, ∃ t, next e s t) (hall : ∀ e t, next e s t → Inevitable next goal t) :
      Inevitable next goal s

variable {ε σ : Type*} {next : ε → σ → σ → Prop} {goal : σ → Prop} {s t : σ}

theorem Inevitable.of_rank {I : σ → Prop} (rank : σ → ℕ)
    (hon : ∀ s, I s → goal s ∨ ∀ e, ∃ t, next e s t)
    (hstep : ∀ e s t, I s → next e s t → I t ∧ rank t < rank s) (h : I s) :
    Inevitable next goal s := by
  induction hrank : rank s using Nat.strongRecOn generalizing s with
  | ind n ih =>
    cases hon s h with
    | inl hgoal => exact .now hgoal
    | inr hon =>
      apply Inevitable.later hon
      intro e t hnext
      obtain ⟨ht, hlt⟩ := hstep e s t h hnext
      exact ih (rank t) (hrank ▸ hlt) ht rfl

theorem Inevitable.reaches {I : σ → Prop} (e : ε) (hstep : ∀ e s t, I s → next e s t → I t)
    (h : Inevitable next goal s) (hs : I s) : ∃ t, I t ∧ goal t := by
  induction h with
  | @now s hgoal => exact ⟨s, hs, hgoal⟩
  | later hon _ ih =>
    obtain ⟨t, ht⟩ := hon e
    exact ih e t ht (hstep e _ t hs ht)

theorem Inevitable.of_stuck {e : ε} (h : Inevitable next goal s) (hstuck : ∀ t, ¬ next e s t) :
    goal s := by
  cases h with
  | now hgoal => exact hgoal
  | later hon _ =>
    obtain ⟨t, ht⟩ := hon e
    exact absurd ht (hstuck t)

theorem Inevitable.step {e : ε} (h : Inevitable next goal s) (hgoal : ¬ goal s)
    (hnext : next e s t) : Inevitable next goal t := by
  cases h with
  | now h => exact absurd h hgoal
  | later _ hall => exact hall e t hnext

/-- The goal is reached within so many steps, whatever the environment does. -/
inductive Within {ε σ : Type*} (next : ε → σ → σ → Prop) (goal : σ → Prop) : ℕ → σ → Prop where
  | now {n : ℕ} {s : σ} (h : goal s) : Within next goal n s
  | later {n : ℕ} {s : σ} (hon : ∀ e, ∃ t, next e s t)
      (hall : ∀ e t, next e s t → Within next goal n t) : Within next goal (n + 1) s

theorem Within.mono {n m : ℕ} (h : Within next goal n s) (hle : n ≤ m) : Within next goal m s := by
  induction h generalizing m with
  | now h => exact .now h
  | later hon _ ih =>
    obtain ⟨m, rfl⟩ : ∃ k, m = k + 1 := ⟨m - 1, by omega⟩
    exact .later hon fun e t hnext => ih e t hnext (Nat.le_of_succ_le_succ hle)

theorem Within.of_rank {I : σ → Prop} (rank : σ → ℕ)
    (hon : ∀ s, I s → goal s ∨ ∀ e, ∃ t, next e s t)
    (hstep : ∀ e s t, I s → ¬ goal s → next e s t → goal t ∨ (I t ∧ rank t < rank s)) (h : I s) :
    Within next goal (rank s + 1) s := by
  induction hrank : rank s using Nat.strongRecOn generalizing s with
  | ind n ih =>
    by_cases hgoal : goal s
    · exact .now hgoal
    · apply Within.later ((hon s h).resolve_left hgoal)
      intro e t hnext
      cases hstep e s t h hgoal hnext with
      | inl ht => exact .now ht
      | inr ht =>
        obtain ⟨ht, hlt⟩ := ht
        rw [hrank] at hlt
        exact (ih (rank t) hlt ht rfl).mono hlt

end AutoPR.Liveness
