import Mathlib.Data.Set.Card
import AutoPR.Jobs.Attempts

/-! How often a handler is started at most. A job is read below the cap and claimed later, so that
several handlings may each claim on a reading of their own; there are no more starts beyond the cap
than there are such handlings at a time. -/
namespace AutoPR.Jobs
open Transition

def WorkerPc.intends : WorkerPc → Option JobId
  | .claiming msg _ | .stamped msg _ _ => some msg.jobId
  | _ => none

def State.intending (s : State) (j : JobId) : Set WorkerId := {w | (s.workers w).intends = some j}

def State.undecided (s : State) : Set WorkerId := {w | (s.workers w).intends.isSome = true}

/-- Below the cap a job may still be read; from the cap on, each start uses a reading up. -/
structure Rationed (cfg : Settings) (n : Nat) (s : State) : Prop where
  undecided : s.undecided.encard ≤ n
  starts : ∀ j, s.starts j < cfg.maxAttempts ∨
    (s.starts j : ℕ∞) + (s.intending j).encard ≤ (cfg.maxAttempts - 1 + n : Nat)

theorem intending_subset (s : State) (j : JobId) : s.intending j ⊆ s.undecided := by
  intro w hw
  unfold State.intending at hw
  unfold State.undecided
  rw [Set.mem_ofPred_eq] at hw ⊢
  rw [hw]
  rfl

section
variable {cfg : Settings} {s t : State} {a : Action} {w : WorkerId} {j : JobId} {n : Nat}

theorem step_intends (hs : Counted cfg s) (h : step cfg s a = some t)
    (hw : (t.workers w).intends = some j) :
    (s.workers w).intends = some j ∨ s.starts j < cfg.maxAttempts := by
  obtain hsame | ⟨e, entry, -, hnew⟩ | ⟨act, msg, eff, rfl, hmsg, hmove, rfl⟩ := step_workers h w
  · exact .inl (hsame ▸ hw)
  · rw [hnew] at hw
    cases hw
  · rw [applyWorker_self] at hw
    generalize s.workers w = pc at hmsg hmove
    cases hmove with
    | readLive m job hrow ht hcap =>
      cases hmsg
      cases hw
      rw [hs.attempts_eq _ job hrow] at hcap
      exact .inr hcap
    | stampClaim m copy => exact .inl hw
    | _ => cases hw

theorem claim_intends (h : step cfg s (.worker w .claim) = some t) :
    (t.workers w).intends = none := by
  obtain ⟨msg, eff, hmsg, hmove, rfl⟩ := step_worker h
  rw [applyWorker_self]
  generalize s.workers w = pc at hmsg hmove
  cases hmove <;> rfl

theorem claim_intending (h : step cfg s (.worker w .claim) = some t)
    (hw : (s.workers w).intends = some j) :
    (t.intending j).encard + 1 ≤ (s.intending j).encard := by
  have hmem : w ∈ s.intending j := hw
  have hsub : t.intending j ⊆ s.intending j \ {w} := by
    intro w' hw'
    have hne : w' ≠ w := by
      rintro rfl
      exact absurd ((claim_intends h).symm.trans hw') (Option.some_ne_none _).symm
    obtain ⟨msg, eff, -, -, rfl⟩ := step_worker h
    unfold State.intending at hw' ⊢
    rw [Set.mem_ofPred_eq, applyWorker_of_ne s w _ _ hne] at hw'
    exact ⟨hw', hne⟩
  rw [← Set.encard_sdiff_singleton_add_one hmem]
  exact add_le_add_left (Set.encard_le_encard hsub) 1

theorem Rationed.initial : Rationed cfg n State.initial where
  undecided := by
    have hnone : State.initial.undecided = ∅ :=
      Set.eq_empty_of_forall_notMem fun w hw => by cases hw
    rw [hnone, Set.encard_empty]
    exact zero_le
  starts j := by
    have hnone : State.initial.intending j = ∅ :=
      Set.eq_empty_of_forall_notMem fun w hw => by cases hw
    rw [hnone, Set.encard_empty, add_zero]
    exact .inr (Nat.cast_le.mpr (Nat.zero_le _))

theorem Rationed.step (hcount : Counted cfg s) (hs : Rationed cfg n s)
    (h : step cfg s a = some t) (hstaff : t.undecided.encard ≤ n) : Rationed cfg n t where
  undecided := hstaff
  starts j := by
    by_cases hbelow : t.starts j < cfg.maxAttempts
    · exact .inl hbelow
    right
    obtain ⟨w, msg, copy, stamp, row, job, rfl, hpc, rfl, -, -, -, hstarts⟩ | ⟨hstarts, -⟩ :=
      step_starts h j
    · have hfewer := claim_intending h (j := msg.jobId) (hpc ▸ rfl)
      rw [hstarts, Nat.cast_add, Nat.cast_one, add_assoc, add_comm 1]
      obtain hroom | hused := hs.starts msg.jobId
      · have hcap : s.starts msg.jobId ≤ cfg.maxAttempts - 1 := by omega
        rw [Nat.cast_add]
        exact add_le_add (Nat.cast_le.mpr hcap)
          (hfewer.trans ((Set.encard_le_encard (intending_subset s _)).trans hs.undecided))
      · exact (add_le_add_right hfewer _).trans hused
    · rw [hstarts] at hbelow ⊢
      have hsub : t.intending j ⊆ s.intending j := by
        intro w hw
        exact (step_intends hcount h hw).resolve_right hbelow
      exact (add_le_add_right (Set.encard_le_encard hsub) _).trans
        ((hs.starts j).resolve_left hbelow)

theorem Rationed.starts_le (h : Rationed cfg n s) (j : JobId) :
    s.starts j ≤ cfg.maxAttempts - 1 + n := by
  obtain hbelow | hused := h.starts j
  · omega
  · exact Nat.cast_le.mp (le_self_add.trans hused)

end

end AutoPR.Jobs
