import Mathlib.Logic.Basic
import Mathlib.Tactic.ByContra
import AutoPR.Routing.Policy

/-! The risk ceiling of the auto path. Both sides of its comparison rank an unknown
label as high; that keeps an unknown risk waiting, and opens an unknown ceiling. -/
namespace AutoPR.Routing
open Python

/-- A label of the risk order, spelled as it is there. -/
def recognised : PyVal → Bool
  | .str s => s ∈ riskOrder
  | _ => false

theorem riskRank_recognised {s : String} (h : s ∈ riskOrder) :
    riskRank (.str s) = riskOrder.idxOf s := if_pos h

theorem riskRank_unrecognised {risk : PyVal} (h : recognised risk = false) : riskRank risk = 3 := by
  cases risk with
  | str s =>
    have hs : s ∉ riskOrder := by simpa [recognised] using h
    exact if_neg hs
  | _ => rfl

theorem riskRank_le (risk : PyVal) : riskRank risk ≤ 3 := by
  cases hknown : recognised risk with
  | false => exact Nat.le_of_eq (riskRank_unrecognised hknown)
  | true =>
    cases risk with
    | str s =>
      have hs : s ∈ riskOrder := by simpa [recognised] using hknown
      rw [riskRank_recognised hs]
      exact Nat.le_of_lt_succ (List.idxOf_lt_length_of_mem hs)
    | _ => cases hknown

theorem riskRank_eq_three {s : String} (h : recognised (.str s) = true) :
    riskRank (.str s) = 3 ↔ s = "high" := by
  have hs : s ∈ riskOrder := by simpa [recognised] using h
  constructor
  · intro hrank
    simp only [riskOrder, List.mem_cons, List.not_mem_nil, or_false] at hs
    obtain rfl | rfl | rfl | rfl := hs
    · exact absurd hrank (by decide)
    · exact absurd hrank (by decide)
    · exact absurd hrank (by decide)
    · rfl
  · intro hhigh
    rw [hhigh]
    decide

theorem routePr_ok {cfg : Settings} {state : PRState} {decision : RoutingDecision}
    (h : routePr cfg state = .ok decision) :
    decision.risk = state.riskScore.getD (.str "medium") ∧
      decision.requiresApproval =
        !(decide (riskRank decision.risk ≤ riskRank (.str cfg.autoCommentMaxRisk)) &&
          !cfg.handoffMode) := by
  unfold routePr at h
  simp only [bind, Except.bind, pure, Except.pure] at h
  cases hbody : renderReviewBody cfg.unicode state with
  | error e =>
    rw [hbody] at h
    cases h
  | ok body =>
    rw [hbody] at h
    cases h
    exact ⟨rfl, rfl⟩

/-- A review goes out without approval only with a risk and under a ceiling that the
order knows, and only when the risk is not above the ceiling. -/
def FailClosed (cfg : Settings) (decision : RoutingDecision) : Prop :=
  decision.requiresApproval = false →
    recognised decision.risk = true ∧ recognised (.str cfg.autoCommentMaxRisk) = true ∧
      riskRank decision.risk ≤ riskRank (.str cfg.autoCommentMaxRisk)

/-- A ceiling at which what the order does not know waits for a human. -/
def Settings.cautious (cfg : Settings) (risk : PyVal) : Bool :=
  recognised (.str cfg.autoCommentMaxRisk) &&
    (recognised risk || cfg.autoCommentMaxRisk ≠ "high")

section
variable {cfg : Settings} {risk : PyVal}

theorem cautious_recognised (h : cfg.cautious risk = true)
    (hrank : riskRank risk ≤ riskRank (.str cfg.autoCommentMaxRisk)) :
    recognised risk = true ∧ recognised (.str cfg.autoCommentMaxRisk) = true := by
  simp only [Settings.cautious, Bool.and_eq_true, Bool.or_eq_true, decide_eq_true_eq] at h
  obtain ⟨hceiling, hknown | hlow⟩ := h
  · exact ⟨hknown, hceiling⟩
  · refine ⟨?_, hceiling⟩
    by_contra hunknown
    rw [riskRank_unrecognised (Bool.eq_false_iff.mpr hunknown)] at hrank
    exact hlow ((riskRank_eq_three hceiling).mp (Nat.le_antisymm (riskRank_le _) hrank))

theorem incautious_admits (h : cfg.cautious risk = false) :
    riskRank risk ≤ riskRank (.str cfg.autoCommentMaxRisk) ∧
      (recognised risk && recognised (.str cfg.autoCommentMaxRisk)) = false := by
  cases hceiling : recognised (.str cfg.autoCommentMaxRisk) with
  | false =>
    rw [riskRank_unrecognised hceiling]
    exact ⟨riskRank_le risk, Bool.and_false _⟩
  | true =>
    simp only [Settings.cautious, hceiling, Bool.true_and, Bool.or_eq_false_iff,
      decide_eq_false_iff_not, not_not] at h
    rw [(riskRank_eq_three hceiling).mpr h.2, h.1]
    exact ⟨riskRank_le risk, rfl⟩

end

/-- An unknown label ranks as high on either side of the comparison, which is cautious
for the risk and permissive for the ceiling. -/
theorem ceiling_fail_closed {cfg : Settings} {state : PRState} {decision : RoutingDecision}
    (h : routePr cfg state = .ok decision) :
    FailClosed cfg decision ↔
      (cfg.handoffMode || cfg.cautious (state.riskScore.getD (.str "medium"))) = true := by
  obtain ⟨hrisk, happroval⟩ := routePr_ok h
  unfold FailClosed
  rw [← hrisk, happroval]
  cases hmode : cfg.handoffMode with
  | true => simp
  | false =>
    simp only [Bool.not_false, Bool.and_true, Bool.not_eq_false', decide_eq_true_eq,
      Bool.false_or]
    constructor
    · intro hclosed
      by_contra hnot
      obtain ⟨hrank, hunknown⟩ := incautious_admits (Bool.eq_false_iff.mpr hnot)
      obtain ⟨hknown, hceiling, -⟩ := hclosed hrank
      rw [hknown, hceiling] at hunknown
      cases hunknown
    · intro hcautious hrank
      obtain ⟨hknown, hceiling⟩ := cautious_recognised hcautious hrank
      exact ⟨hknown, hceiling, hrank⟩

/-- A review of high risk. -/
def PRState.risky : PRState :=
  { riskScore := some (.str "high"), summary := some (.str "Rewrites the login.") }

def Settings.under (ceiling : String) : Settings :=
  { autoCommentMaxRisk := ceiling, unicode := .ascii }

theorem ceiling_fail_closed_low :
    ∃ decision, routePr (.under "low") .risky = .ok decision ∧ FailClosed (.under "low") decision :=
  ⟨_, rfl, (ceiling_fail_closed (show routePr (.under "low") .risky = _ from rfl)).mpr (by decide)⟩

/-- A ceiling in capitals lets a review of high risk out. -/
theorem unknown_ceiling_permissive :
    ∃ decision, routePr (.under "LOW") .risky = .ok decision ∧ decision.requiresApproval = false ∧
      recognised (.str "LOW") = false ∧ ¬ FailClosed (.under "LOW") decision := by
  refine ⟨_, rfl, rfl, by decide, ?_⟩
  intro hclosed
  cases (hclosed rfl).2.1

end AutoPR.Routing
