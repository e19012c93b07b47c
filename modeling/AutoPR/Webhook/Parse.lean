import AutoPR.Jobs.Row
import AutoPR.Tenancy.Store

/-! What a delivery asks for. The payload is whatever JSON the sender signed, so reading it
may raise. -/
namespace AutoPR.Webhook
open Python Tenancy

/-- The result of `parse_event`. The name of the repository is any value that counts as true. -/
structure Candidate where
  repo : PyVal
  prNumber : Int
  commitSha : String
  author : String
  event : String
  installationId : Option Int
  ciLogs : String := ""

def Candidate.dedupKey (u : Unicode) (sha256 : String → String) (c : Candidate) : String :=
  sha256 (c.event ++ "|" ++ c.repo.toStr u ++ "|" ++ toString c.prNumber ++ "|" ++ c.commitSha)

def parsePullRequestEvent (u : Unicode) (event : String) (payload : PyVal) :
    Py (Option Candidate) := do
  if event = "ping" then return none
  let pr ← payload.get "pull_request" .none
  if !pr.truthy then return none
  let repo ← ((← payload.get "repository" .none).or (.dict [])).get "full_name" .none
  let head := (← pr.get "head" .none).or (.dict [])
  let author ← ((← pr.get "user" .none).or (.dict [])).get "login" (.str "unknown")
  if !repo.truthy then return none
  let number ← pr.get "number" .none
  if number.isNone then return none
  let sha ← head.get "sha" .none
  if !sha.truthy then return none
  return some {
    repo := repo
    prNumber := ← number.toInt u
    commitSha := sha.toStr u
    author := author.toStr u
    event := event
    installationId := ← installationIdFrom u payload }

def failureConclusions : List String := ["failure", "timed_out", "action_required"]

def isFailure : PyVal → Py Bool
  | .str s => pure (s ∈ failureConclusions)
  | .list _ | .dict _ => throw .typeError
  | .none | .bool _ | .int _ | .float _ _ _ => pure false

def firstNumber (u : Unicode) : List PyVal → Py (Option Int)
  | [] => pure none
  | item :: rest => do
      let n ← (item.or (.dict [])).get "number" .none
      if n.isNone then firstNumber u rest else return some (← n.toInt u)

def firstPrNumber (u : Unicode) (objs : PyVal) : Py (Option Int) := do
  firstNumber u (← (objs.or (.list [])).iter)

def clip (text : String) : String :=
  if text.length ≤ 12000 then text else takeFirst 12000 text ++ "\n... (truncated) ..."

def joinParts (parts : List String) : String := clip ("\n".intercalate (parts.filter (· ≠ "")))

def stripped (v : PyVal) : Py String := (v.or (.str "")).strip

def checkRunLogs (u : Unicode) (cr : PyVal) : Py String := do
  let output := (← cr.get "output" .none).or (.dict [])
  let name ← cr.get "name" (.str "?")
  let conclusion ← cr.get "conclusion" (.str "?")
  let title ← stripped (← output.get "title" .none)
  let summary ← stripped (← output.get "summary" .none)
  let text ← stripped (← output.get "text" .none)
  return joinParts
    ["check: " ++ name.toStr u, "conclusion: " ++ conclusion.toStr u, title, summary, text]

def workflowRunLogs (u : Unicode) (wr : PyVal) : Py String := do
  let headCommit := (← wr.get "head_commit" .none).or (.dict [])
  let name ← wr.get "name" (.str "?")
  let conclusion ← wr.get "conclusion" (.str "?")
  let event ← wr.get "event" (.str "?")
  let title ← stripped (← wr.get "display_title" .none)
  let message ← stripped (← headCommit.get "message" .none)
  return joinParts
    ["workflow: " ++ name.toStr u, "conclusion: " ++ conclusion.toStr u, "event: " ++ event.toStr u,
      title, message]

structure FailedRun where
  sha : PyVal
  prNumber : Option Int
  author : PyVal
  logs : String

/-- What a check and a workflow are read for alike; they name their owner in other places and
carry other logs. -/
def readRun (u : Unicode) (owner name : String) (logs : PyVal → Py String) (run : PyVal) :
    Py (Option FailedRun) := do
  if !(← isFailure (← run.get "conclusion" .none)) then return none
  let sha ← run.get "head_sha" .none
  let prNumber ← firstPrNumber u (← run.get "pull_requests" .none)
  let author := (← ((← run.get owner .none).or (.dict [])).get name .none).or (.str "ci")
  return some ⟨sha, prNumber, author, ← logs run⟩

def readCheckRun (u : Unicode) : PyVal → Py (Option FailedRun) :=
  readRun u "app" "slug" (checkRunLogs u)

def readWorkflowRun (u : Unicode) : PyVal → Py (Option FailedRun) :=
  readRun u "actor" "login" (workflowRunLogs u)

def parseCiEvent (u : Unicode) (event : String) (payload : PyVal) : Py (Option Candidate) := do
  if !(← payload.get "action" .none).eqStr "completed" then return none
  let repo ← ((← payload.get "repository" .none).or (.dict [])).get "full_name" .none
  if !repo.truthy then return none
  let run ←
    if event = "check_run" then readCheckRun u ((← payload.get "check_run" .none).or (.dict []))
    else if event = "workflow_run" then
      readWorkflowRun u ((← payload.get "workflow_run" .none).or (.dict []))
    else pure none
  match run with
  | none => return none
  | some run =>
      if !run.sha.truthy then return none
      match run.prNumber with
      | none => return none
      | some n =>
          return some {
            repo := repo
            prNumber := n
            commitSha := run.sha.toStr u
            author := run.author.toStr u
            event := event
            ciLogs := run.logs
            installationId := ← installationIdFrom u payload }

def ciEvents : List String := ["check_run", "workflow_run"]

def parseEvent (u : Unicode) (event : String) (payload : PyVal) : Py (Option Candidate) :=
  if event ∈ ciEvents then parseCiEvent u event payload else parsePullRequestEvent u event payload

/-- A candidate, if there is one, carries the name of the event and the id of its installation. -/
def Stems (u : Unicode) (event : String) (payload : PyVal) (found : Option Candidate) : Prop :=
  ∀ c, found = some c → c.event = event ∧ installationIdFrom u payload = .ok c.installationId

theorem stems_none (u : Unicode) (event : String) (payload : PyVal) :
    Stems u event payload none := by
  intro c hc
  cases hc

theorem parsePullRequestEvent_stems (u : Unicode) (event : String) (payload : PyVal) :
    Yields (Stems u event payload) (parsePullRequestEvent u event payload) := by
  have hnone := Yields.pure (stems_none u event payload)
  unfold parsePullRequestEvent
  apply Yields.ite hnone
  apply Yields.bind
  intro pr
  apply Yields.ite hnone
  apply Yields.bind
  intro repository
  apply Yields.bind
  intro repo
  apply Yields.bind
  intro head
  apply Yields.bind
  intro user
  apply Yields.bind
  intro author
  apply Yields.ite hnone
  apply Yields.bind
  intro number
  apply Yields.ite hnone
  apply Yields.bind
  intro sha
  apply Yields.ite hnone
  apply Yields.bind
  intro n
  apply Yields.bind_of
  intro i hi
  apply Yields.pure
  intro c hc
  cases hc
  exact ⟨rfl, hi⟩

theorem parseCiEvent_stems (u : Unicode) (event : String) (payload : PyVal) :
    Yields (Stems u event payload) (parseCiEvent u event payload) := by
  have hnone := Yields.pure (stems_none u event payload)
  unfold parseCiEvent
  apply Yields.bind
  intro action
  apply Yields.ite hnone
  apply Yields.bind
  intro repository
  apply Yields.bind
  intro repo
  apply Yields.ite hnone
  -- what the two kinds of run have in common
  extract_lets candidate
  have hcandidate : ∀ run, Yields (Stems u event payload) (candidate run) := by
    intro run
    dsimp only [candidate]
    cases run with
    | none => exact hnone
    | some run =>
      apply Yields.ite hnone
      cases run.prNumber with
      | none => exact hnone
      | some n =>
        apply Yields.bind_of
        intro i hi
        apply Yields.pure
        intro c hc
        cases hc
        exact ⟨rfl, hi⟩
  apply Yields.ite
  · apply Yields.bind
    intro run
    exact Yields.bind hcandidate
  · apply Yields.ite
    · apply Yields.bind
      intro run
      exact Yields.bind hcandidate
    · exact Yields.bind hcandidate

theorem parseEvent_stems (u : Unicode) (event : String) (payload : PyVal) :
    Yields (Stems u event payload) (parseEvent u event payload) :=
  Yields.ite (parseCiEvent_stems u event payload) (parsePullRequestEvent_stems u event payload)

def allowedRepoSet (u : Unicode) (allowedRepos : String) : List String :=
  let names := (allowedRepos.toList.splitOn ',').map String.ofList
  ((names.map strip).filter (· ≠ "")).map u.lower

def repoIsAllowed (u : Unicode) (allowedRepos : String) (repo : PyVal) : Py Bool :=
  match allowedRepoSet u allowedRepos with
  | [] => pure true
  | allowed => do
      return u.lower (← repo.strip) ∈ allowed

end AutoPR.Webhook
