import AutoPR.Library.Python

/-! The routing decision, a pure function of the finished pipeline state. The
renderers are part of it: they raise on values that a model may have returned. -/
namespace AutoPR.Routing
open Python

/-- The settings that routing and approval read. -/
structure Settings where
  autoCommentMaxRisk : String := "low"
  handoffMode : Bool := false
  publicMode : Bool := false
  githubWebUrl : String := "https://github.com"
  unicode : Unicode

/-- The keys of the pipeline state that routing reads, each with any value. -/
structure PRState where
  repo : Option PyVal := none
  prNumber : Option PyVal := none
  commitSha : Option PyVal := none
  installationId : Option PyVal := none
  ciLogs : Option PyVal := none
  ciEvent : Option PyVal := none
  reviewFindings : Option PyVal := none
  riskScore : Option PyVal := none
  summary : Option PyVal := none
  generatedTests : Option PyVal := none
  failureType : Option PyVal := none
  failureDiagnosis : Option PyVal := none
  proposedFix : Option PyVal := none
  fixVerified : Option PyVal := none
  verificationReason : Option PyVal := none
  verificationOutput : Option PyVal := none

inductive Action where
  | commentReview
  | proposeFix
  | escalate
  | none
deriving DecidableEq, Repr

def Action.value : Action → String
  | .commentReview => "comment_review"
  | .proposeFix => "propose_fix"
  | .escalate => "escalate"
  | .none => "none"

def Action.ofValue (value : String) : Py Action :=
  if value = "comment_review" then pure .commentReview
  else if value = "propose_fix" then pure .proposeFix
  else if value = "escalate" then pure .escalate
  else if value = "none" then pure .none
  else throw .valueError

theorem Action.ofValue_value (action : Action) : Action.ofValue action.value = .ok action := by
  cases action <;> rfl

def riskOrder : List String := ["trivial", "low", "medium", "high"]

def riskRank : PyVal → Nat
  | .str s => if s ∈ riskOrder then riskOrder.idxOf s else riskOrder.length - 1
  | _ => riskOrder.length - 1

structure RoutingDecision where
  action : Action
  requiresApproval : Bool
  risk : PyVal
  reason : PyVal
  title : String
  body : String

def RoutingDecision.isActionable (decision : RoutingDecision) : Bool := decision.action ≠ .none

def RoutingDecision.dedupKey (u : Unicode) (state : PRState) (decision : RoutingDecision) :
    Py String := do
  let repo ← (state.repo.getD (.str "?")).asStr
  let sha ← (state.commitSha.getD (.str "?")).asStr
  return "|".intercalate
    [repo, (state.prNumber.getD (.int 0)).toStr u, sha, decision.action.value]

def renderDraftTests (tests : PyVal) : Py (List String) := do
  let body ← (tests.or (.str "")).strip
  if body = "" then return []
  let limit := 4000
  let truncated := limit < body.length
  return [
      "",
      "<details><summary>🧪 Suggested tests (draft — not executed)</summary>",
      "",
      "```python",
      takeFirst limit body,
      "```"] ++
    (if truncated then
      ["", "_(truncated at " ++ toString limit ++ " characters to keep the comment readable)_"]
    else []) ++ ["</details>"]

def findingIcon (severity : String) : String :=
  if severity = "error" then "🔴" else if severity = "warning" then "🟡" else "🔵"

def renderFinding (u : Unicode) (finding : PyVal) : Py String := do
  let severity ← finding.get "severity" (.str "info")
  let file ← finding.get "file" (.str "?")
  let line ← finding.get "line" (.str "?")
  let message ← (← finding.get "message" (.str "")).strip
  return "- " ++ findingIcon (u.lower (severity.toStr u)) ++ " `" ++ file.toStr u ++ ":" ++
    line.toStr u ++ "` — " ++ message

def renderFindings (u : Unicode) (findings : PyVal) : Py (List String) := do
  if findings.truthy then
    let lines ← (← findings.iter).mapM (renderFinding u)
    return ["", "### Findings"] ++ lines
  else return ["", "_No blocking issues found._"]

def renderReviewBody (u : Unicode) (state : PRState) : Py String := do
  let findings := (state.reviewFindings.getD (.list [])).or (.list [])
  let summary ← ((state.summary.getD (.str "")).or (.str "(no summary produced)")).strip
  let risk := state.riskScore.getD (.str "medium")
  let found ← renderFindings u findings
  let tests ← renderDraftTests (state.generatedTests.getD (.str ""))
  return "\n".intercalate
    (["## 🤖 AutoPR review", "", "**Risk:** `" ++ risk.toStr u ++ "`", "", summary] ++
      found ++ tests)

def renderFixBody (u : Unicode) (state : PRState) : Py String := do
  let diag ← ((state.failureDiagnosis.getD (.str "")).or (.str "(no diagnosis)")).strip
  let ftype := state.failureType.getD (.str "unknown")
  let fix ← ((state.proposedFix.getD (.str "")).or (.str "")).strip
  return "\n".intercalate [
    "## 🤖 AutoPR proposed fix (sandbox-verified)",
    "",
    "**Failure type:** `" ++ ftype.toStr u ++ "`",
    "",
    "**Diagnosis:** " ++ diag,
    "",
    "This patch was applied to a snapshot of the repo and the matching " ++
      "check passed inside an isolated sandbox. A maintainer must approve " ++
      "before it is applied to the real branch.",
    "",
    "```diff",
    fix,
    "```"]

def renderEscalationBody (u : Unicode) (state : PRState) : Py String := do
  let ftype := state.failureType.getD (.str "unknown")
  let diag ← ((state.failureDiagnosis.getD (.str "")).or (.str "(no diagnosis)")).strip
  let reason := (state.verificationReason.getD (.str "")).or (.str "n/a")
  let out ← ((state.verificationOutput.getD (.str "")).or (.str "")).strip
  return "\n".intercalate ([
      "## 🤖 AutoPR could not auto-fix this — human needed",
      "",
      "**Failure type:** `" ++ ftype.toStr u ++ "`",
      "",
      "**Diagnosis:** " ++ diag,
      "",
      "**Why not auto-fixed:** `" ++ reason.toStr u ++ "`"] ++
    if out = "" then []
    else [
      "",
      "<details><summary>Sandbox output</summary>",
      "",
      "```",
      takeLast 1500 out,
      "```",
      "</details>"])

def routeCi (cfg : Settings) (state : PRState) : Py RoutingDecision := do
  let risk := state.riskScore.getD (.str "medium")
  if (state.fixVerified.getD .none).truthy then
    return {
      action := .proposeFix
      requiresApproval := true
      risk := risk
      reason := .str "verified_fix_needs_promotion"
      title := "Verified fix ready for maintainer approval"
      body := ← renderFixBody cfg.unicode state }
  let ftype := state.failureType.getD (.str "unknown")
  if ftype.eqStr "unknown" && !(state.failureDiagnosis.getD .none).truthy then
    return {
      action := .none
      requiresApproval := false
      risk := risk
      reason := .str "no_diagnosis"
      title := "No actionable CI diagnosis"
      body := "" }
  return {
    action := .escalate
    requiresApproval := true
    risk := risk
    reason := state.verificationReason.getD (.str "unfixed")
    title := "CI failure needs human attention"
    body := ← renderEscalationBody cfg.unicode state }

def routePr (cfg : Settings) (state : PRState) : Py RoutingDecision := do
  let risk := state.riskScore.getD (.str "medium")
  let ceiling := riskRank (.str cfg.autoCommentMaxRisk)
  let auto := decide (riskRank risk ≤ ceiling) && !cfg.handoffMode
  return {
    action := .commentReview
    requiresApproval := !auto
    risk := risk
    reason := .str (if auto then "low_risk_auto" else "elevated_risk_needs_approval")
    title := if auto then "Auto-posting low-risk review" else "Review held for maintainer approval"
    body := ← renderReviewBody cfg.unicode state }

def PRState.isCi (state : PRState) : Bool :=
  !(state.failureType.getD .none).isNone || (state.ciLogs.getD .none).truthy ||
    (state.ciEvent.getD .none).truthy

def route (cfg : Settings) (state : PRState) : Py RoutingDecision :=
  if state.isCi then routeCi cfg state else routePr cfg state

end AutoPR.Routing
