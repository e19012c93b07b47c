import AutoPR.Commands.Parse
import AutoPR.Routing.System
import AutoPR.Tenancy.AppAuth
import Mathlib.Data.List.Sort

/-! The handler of pull request comments, on a database that nobody else uses meanwhile.
It may raise, and what it has done before stays. -/
namespace AutoPR.Commands
open Python UnitOfWork Routing Tenancy

structure CommandSettings extends ClientSettings where
  githubCommentCommands : Bool := true

def approverPermissions : List String := ["admin", "maintain", "write", "push"]

structure Database where
  tenants : Installations
  decisions : Ledger
  createdAt : DecisionId → Time

inductive CommentResult where
  | ignored (reason : String)
  | error (reason : String)
  | replied (url : String)
  | executed (d : DecisionId) (url actor : String)
  | actionFailed (d : DecisionId) (detail : String)
  | rejected (d : DecisionId) (actor : String)
deriving DecidableEq

inductive Raised where
  | py (e : PyError)
  | auth (e : AuthError)
  /-- By the client's post. -/
  | client
deriving DecidableEq

inductive Deed where
  /-- GitHub's answer about a login, and the token that it was asked with. -/
  | asked (token : InstallationToken) (repo login permission : String)
  | wrote (d : DecisionId) (row : ReviewDecision)
  | posted (d : DecisionId) (credential : Option InstallationToken) (comment : Comment) (ok : Bool)
  | replied (credential : Option InstallationToken) (comment : Comment) (ok : Bool)

def Deed.isComment : Deed → Bool
  | .posted .. | .replied .. => true
  | .asked .. | .wrote .. => false

structure Desk where
  auth : AppAuth
  rows : DecisionTable
  /-- Newest first. -/
  deeds : List Deed

def Database.desk (db : Database) (auth : AppAuth) : Desk := ⟨auth, db.decisions.rows, []⟩

abbrev Handling := EStateM Raised Desk

structure Request where
  command : Command
  actor : String
  repo : String
  prNumber : PyVal
  installationId : PyVal

/-- The checks of the payload alone: what it asks for, or why it is ignored. -/
def readPayload (u : Unicode) (payload : PyVal) : Py (Except String Request) := do
  if !(← payload.get "action" .none).eqStr "created" then return .error "not_created"
  let issue := (← payload.get "issue" .none).or (.dict [])
  if !(← issue.get "pull_request" .none).truthy then return .error "not_a_pull_request"
  let comment := (← payload.get "comment" .none).or (.dict [])
  let body := (← comment.get "body" .none).or (.str "")
  match ← parseCommand u body with
  | none => return .error "not_a_command"
  | some command =>
      let user := (← comment.get "user" .none).or (.dict [])
      let actor := ((← user.get "login" .none).or (.str "")).toStr u
      if actor = "" then return .error "anonymous"
      if u.lower (((← user.get "type" .none).or (.str "")).toStr u) = "bot" then
        return .error "bot_comment"
      let repository := (← payload.get "repository" .none).or (.dict [])
      let repo := ((← repository.get "full_name" .none).or (.str "")).toStr u
      let prNumber ← issue.get "number" .none
      let installationId ← ((← payload.get "installation" .none).or (.dict [])).get "id" .none
      if repo = "" || prNumber.isNone || installationId.isNone then
        return .error "incomplete_delivery"
      return .ok ⟨command, actor, repo, prNumber, installationId⟩

def orRaise {α : Type} : Py α → Handling α
  | .ok a => pure a
  | .error e => throw (.py e)

def store (d : DecisionId) (row : ReviewDecision) : Handling Unit := fun desk =>
  .ok () { desk with
    rows := Function.update desk.rows d (some row)
    deeds := .wrote d row :: desk.deeds }

/-- A call of `post_issue_comment`. The first two moments of `w` are the permission check's,
the third is the minting of the client's token. -/
def send (w : Nat → Moment) (client : Client) (comment : Comment) (deed : Bool → Deed) :
    Handling ActionResult := fun desk =>
  let calls := desk.deeds.countP Deed.isComment
  let outcome := client.postIssueComment (w (3 + calls)) calls comment
  let desk := { desk with deeds := deed outcome.ok :: desk.deeds }
  match outcome with
  | .answered result => .ok result desk
  | .raised => .error .client desk

def sendReply (w : Nat → Moment) (client : Client) (repo : String) (prNumber : Int) (body : String) :
    Handling CommentResult := do
  let comment : Comment := ⟨.str repo, prNumber, body⟩
  let result ← send w client comment (.replied client.token comment)
  return .replied result.url

def askPermission (u : Unicode) (w : Nat → Moment) (i : Int) (repo login : String) :
    Handling (Option String) := fun desk =>
  match desk.auth.collaboratorPermission u (w 0) (w 1) i repo login with
  | (.ok (token, permission), auth) =>
      .ok (some permission)
        { desk with auth := auth, deeds := .asked token repo login permission :: desk.deeds }
  | (.error (.gitHubApp _), auth) => .ok none { desk with auth := auth }
  | (.error e, auth) => .error (.auth e) { desk with auth := auth }

def makeClient (cfg : CommandSettings) (w : Nat → Moment) (i : Int) : Handling Client := fun desk =>
  match desk.auth.client cfg.toClientSettings (w 2) i with
  | (.ok client, auth) => .ok client { desk with auth := auth }
  | (.error e, auth) => .error (.auth e) { desk with auth := auth }

def decisionFor (u : Unicode) (d : DecisionId) (repo : String) (i : Int) :
    Handling (Option ReviewDecision) := fun desk =>
  .ok ((desk.rows d).filter (addressable u repo i)) desk

inductive Claim where
  | claimed
  | alreadyExecuted
  | rejected
  | inProgress
  | notFound

def claimApproval (d : DecisionId) : Handling (Option ReviewDecision × Claim) := do
  match (← get).rows d with
  | none => return (none, .notFound)
  | some row =>
      match row.claim with
      | some claimed =>
          store d claimed
          return (some claimed, .claimed)
      | none =>
          match row.status with
          | .executed => return (some row, .alreadyExecuted)
          | .rejected => return (some row, .rejected)
          | .failed =>
              match row.retry with
              | some claimed =>
                  store d claimed
                  return (some claimed, .claimed)
              | none => return (some row, .inProgress)
          | .pending | .approved => return (some row, .inProgress)

def rejectPending (d : DecisionId) : Handling (Option ReviewDecision × Claim) := do
  match (← get).rows d with
  | none => return (none, .notFound)
  | some row =>
      match row.reject with
      | some rejected =>
          store d rejected
          return (some rejected, .rejected)
      | none =>
          if row.status = .executed then return (some row, .alreadyExecuted)
          else return (some row, .inProgress)

def pendingForRepo (db : Database) (rows : DecisionTable) (repo : String) (i : Int) :
    List (DecisionId × ReviewDecision) :=
  let pending := (List.range db.decisions.nextId).filterMap fun d =>
    ((rows d).filter fun row =>
      row.status = .pending && row.installationId = some i && row.repo = repo).map fun row =>
        (db.createdAt d, d, row)
  ((pending.insertionSort fun p q => p.1 ≤ q.1).take 10).map (·.2)

def helpText : String :=
  "**AutoPR commands**\n\n" ++
  "- `/autopr status` — what is waiting for review on this repository\n" ++
  "- `/autopr approve <id>` — carry out a queued action\n" ++
  "- `/autopr reject <id>` — decline it (no GitHub action is taken)\n\n" ++
  "Only people with write access or above can approve. Code changes are never " ++
  "applied automatically: they wait here for a human."

def statusLine (u : Unicode) (d : DecisionId) (row : ReviewDecision) : String :=
  "- `#" ++ toString d ++ "` **" ++ row.action ++ "** · risk `" ++ row.risk.toStr u ++ "` · " ++
    (if row.title = "" then "no title" else row.title)

def statusText (u : Unicode) (pending : List (DecisionId × ReviewDecision)) : String :=
  if pending = [] then "Nothing is waiting for review on this repository."
  else "\n".intercalate
    (["**" ++ toString pending.length ++ " item(s) waiting for review**", ""] ++
      pending.map (fun p => statusLine u p.1 p.2) ++
      ["", "Approve with `/autopr approve <id>`, decline with `/autopr reject <id>`."])

def perform (cfg : CommandSettings) (w : Nat → Moment) (client : Client) (d : DecisionId)
    (claimed : ReviewDecision) : Handling ActionResult := do
  match ← orRaise (claimed.comment cfg.unicode) with
  | some comment => send w client comment (.posted d client.token comment)
  | none => return noAction

def settle (w : Nat → Moment) (client : Client) (d : DecisionId) (repo : String) (prNumber : Int)
    (actor : String) (claimed : ReviewDecision) (result : ActionResult) : Handling CommentResult :=
  if result.ok then do
    store d (claimed.markExecuted claimed result.url)
    return .executed d result.url actor
  else do
    store d (claimed.markFailed claimed result.detail)
    let _ ← sendReply w client repo prNumber
      ("Could not execute `#" ++ toString d ++ "`: " ++ result.detail)
    return .actionFailed d result.detail

def execute (cfg : CommandSettings) (w : Nat → Moment) (client : Client) (d : DecisionId)
    (repo : String) (prNumber : Int) (actor : String) (claimed : ReviewDecision) :
    Handling CommentResult := do
  let result ← perform cfg w client d claimed
  settle w client d repo prNumber actor claimed result

def approve (cfg : CommandSettings) (w : Nat → Moment) (client : Client) (d : DecisionId)
    (repo : String) (prNumber : Int) (actor : String) : Handling CommentResult := do
  match ← claimApproval d with
  | (none, _) => return .ignored "decision_missing"
  | (some _, .alreadyExecuted) =>
      sendReply w client repo prNumber ("`#" ++ toString d ++ "` was already executed.")
  | (some _, .rejected) =>
      sendReply w client repo prNumber ("`#" ++ toString d ++ "` was rejected; nothing to do.")
  | (some _, .inProgress) =>
      sendReply w client repo prNumber ("`#" ++ toString d ++ "` is being executed right now.")
  | (some claimed, _) => execute cfg w client d repo prNumber actor claimed

def reject (w : Nat → Moment) (client : Client) (d : DecisionId) (repo : String) (prNumber : Int)
    (actor : String) : Handling CommentResult := do
  match ← rejectPending d with
  | (none, _) => return .ignored "decision_missing"
  | (some _, .alreadyExecuted) =>
      sendReply w client repo prNumber ("`#" ++ toString d ++ "` already executed; cannot reject.")
  | (some _, .inProgress) =>
      sendReply w client repo prNumber ("`#" ++ toString d ++ "` is executing; cannot reject.")
  | (some _, _) => return .rejected d actor

/-- A request that has passed the checks. -/
structure Cleared where
  request : Request
  installation : Int
  client : Client

def obey (cfg : CommandSettings) (w : Nat → Moment) (db : Database) (c : Cleared) :
    Handling CommentResult := do
  let repo := c.request.repo
  let prNumber ← orRaise (c.request.prNumber.toInt cfg.unicode)
  if c.request.command.verb = "help" then sendReply w c.client repo prNumber helpText
  else if c.request.command.verb = "status" then
    let pending := pendingForRepo db (← get).rows repo c.installation
    sendReply w c.client repo prNumber (statusText cfg.unicode pending)
  else
    match c.request.command.decisionId with
    | none =>
        sendReply w c.client repo prNumber
          ("Usage: `/autopr " ++ c.request.command.verb ++ " <id>` — see `/autopr status` for ids.")
    | some d =>
        match ← decisionFor cfg.unicode d repo c.installation with
        | none =>
            sendReply w c.client repo prNumber
              ("No decision `#" ++ toString d ++ "` is awaiting review on this repository.")
        | some _ =>
            if c.request.command.verb = "reject" then
              reject w c.client d repo prNumber c.request.actor
            else approve cfg w c.client d repo prNumber c.request.actor

/-- The checks, with the authority that GitHub reports. -/
def clear (cfg : CommandSettings) (w : Nat → Moment) (db : Database) (configured : Bool)
    (payload : PyVal) : Handling (Except CommentResult Cleared) := do
  if !cfg.githubCommentCommands then return .error (.ignored "comment_commands_disabled")
  match ← orRaise (readPayload cfg.unicode payload) with
  | .error reason => return .error (.ignored reason)
  | .ok request =>
      if !configured then return .error (.ignored "no_app_credentials")
      let i ← orRaise (request.installationId.toInt cfg.unicode)
      if (db.tenants.getActive i).isNone then return .error (.ignored "installation_inactive")
      match ← askPermission cfg.unicode w i request.repo request.actor with
      | none => return .error (.error "permission_check_failed")
      | some permission =>
          if permission ∉ approverPermissions then
            -- the log line converts the number
            let _ ← orRaise (request.prNumber.toInt cfg.unicode)
            return .error (.ignored "insufficient_permission")
          let client ← makeClient cfg w i
          return .ok ⟨request, i, client⟩

/-- The handler; without App credentials there is no `auth`. -/
def handleIssueComment (cfg : CommandSettings) (w : Nat → Moment) (db : Database)
    (configured : Bool) (payload : PyVal) : Handling CommentResult := do
  match ← clear cfg w db configured payload with
  | .error result => return result
  | .ok c => obey cfg w db c

end AutoPR.Commands
