import AutoPR.Library.Returning
import AutoPR.Routing.Policy

/-! When the renderers return. They strip texts that a model may have answered with anything. -/
namespace AutoPR.Routing
open Python

/-- A finding that can be shown: an object whose message, if it has one, is a text. -/
def isFinding : PyVal → Bool
  | .dict items => isText ((items.lookup "message").getD (.str ""))
  | _ => false

def areFindings (v : PyVal) : Bool :=
  !v.truthy || v.isListOf isFinding

def renders (state : PRState) : Bool :=
  let diagnosis := isTextual (state.failureDiagnosis.getD (.str ""))
  if state.isCi then
    if (state.fixVerified.getD .none).truthy then
      diagnosis && isTextual (state.proposedFix.getD (.str ""))
    else diagnosis && isTextual (state.verificationOutput.getD (.str "")) ||
      (state.failureType.getD (.str "unknown")).eqStr "unknown" &&
        !(state.failureDiagnosis.getD .none).truthy
  else
    isTextual (state.summary.getD (.str "")) &&
      areFindings (state.reviewFindings.getD (.list [])) &&
      isTextual (state.generatedTests.getD (.str ""))

section
variable {u : Unicode} {v : PyVal} {state : PRState}

theorem returns_renderFinding : Returns (renderFinding u v) ↔ isFinding v = true := by
  cases v with
  | dict items =>
    change Returns (((items.lookup "message").getD (.str "")).strip >>= fun _ => _) ↔ _
    exact (returns_bind_pure fun _ => Returns.ok _).trans returns_strip
  | none | bool | int | float | str | list =>
    refine iff_of_false ?_ Bool.false_ne_true
    exact not_returns _

/-- Only a list of findings is shown; what else counts as true cannot be gone through, or has
items that are texts. -/
theorem returns_renderFindings : Returns (renderFindings u v) ↔ areFindings v = true := by
  unfold renderFindings areFindings
  cases htruthy : v.truthy with
  | false => exact iff_of_true (Returns.ok _) rfl
  | true =>
    rw [if_pos rfl, Bool.not_true, Bool.false_or, ← iter_all (fun _ => rfl) htruthy,
      ← returns_each (fun x => @returns_renderFinding u x), ← bind_assoc]
    exact returns_bind_pure fun lines => Returns.ok _

theorem returns_renderDraftTests : Returns (renderDraftTests v) ↔ isTextual v = true := by
  unfold renderDraftTests
  refine (returns_bind_pure ?_).trans (returns_or_strip "")
  intro body
  split
  · exact Returns.ok _
  · exact Returns.ok _

theorem returns_renderReviewBody :
    Returns (renderReviewBody u state) ↔
      isTextual (state.summary.getD (.str "")) = true ∧
      areFindings (state.reviewFindings.getD (.list [])) = true ∧
      isTextual (state.generatedTests.getD (.str "")) = true := by
  have hfindings (v : PyVal) : areFindings (v.or (.list [])) = areFindings v := by
    unfold PyVal.or areFindings
    cases htruthy : v.truthy with
    | true => simp [htruthy]
    | false => rfl
  unfold renderReviewBody
  dsimp only
  rw [← hfindings, ← returns_or_strip "(no summary produced)", ← @returns_renderFindings u,
    ← returns_renderDraftTests]
  apply returns_bind_of
  intro summary
  apply returns_bind_of
  intro found
  exact returns_bind_pure fun tests => Returns.ok _

theorem returns_renderFixBody :
    Returns (renderFixBody u state) ↔
      isTextual (state.failureDiagnosis.getD (.str "")) = true ∧
      isTextual (state.proposedFix.getD (.str "")) = true := by
  unfold renderFixBody
  dsimp only
  rw [← returns_or_strip "(no diagnosis)", ← returns_or_strip ""]
  apply returns_bind_of
  intro diagnosis
  exact returns_bind_pure fun fix => Returns.ok _

theorem returns_renderEscalationBody :
    Returns (renderEscalationBody u state) ↔
      isTextual (state.failureDiagnosis.getD (.str "")) = true ∧
      isTextual (state.verificationOutput.getD (.str "")) = true := by
  unfold renderEscalationBody
  dsimp only
  rw [← returns_or_strip "(no diagnosis)", ← returns_or_strip ""]
  apply returns_bind_of
  intro diagnosis
  exact returns_bind_pure fun out => Returns.ok _

theorem returns_route {cfg : Settings} : Returns (route cfg state) ↔ renders state = true := by
  unfold route renders
  cases state.isCi with
  | true =>
    dsimp only
    rw [if_pos rfl, if_pos rfl]
    unfold routeCi
    dsimp only
    cases hverified : (state.fixVerified.getD .none).truthy with
    | true =>
      rw [if_pos rfl, if_pos rfl, Bool.and_eq_true, ← @returns_renderFixBody cfg.unicode]
      exact returns_bind_pure fun body => Returns.ok _
    | false =>
      rw [if_neg Bool.false_ne_true, if_neg Bool.false_ne_true, Bool.or_eq_true]
      split
      · rename_i hquiet
        exact iff_of_true (Returns.ok _) (.inr hquiet)
      · rename_i hloud
        rw [or_iff_left hloud, Bool.and_eq_true, ← @returns_renderEscalationBody cfg.unicode]
        exact returns_bind_pure fun body => Returns.ok _
  | false =>
    dsimp only
    rw [if_neg Bool.false_ne_true, if_neg Bool.false_ne_true, Bool.and_eq_true, Bool.and_eq_true,
      and_assoc, ← @returns_renderReviewBody cfg.unicode]
    unfold routePr
    exact returns_bind_pure fun body => Returns.ok _

end

end AutoPR.Routing
