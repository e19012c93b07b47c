import AutoPR.Commands.Conversation
import AutoPR.Commands.Ops
import AutoPR.Library.Earliest

/-! What a status command lists, against what an approval from the same thread would claim. The
list compares the name of the repository as it is spelled, the approval in lower case; the list
shows an id in full, of which the approval reads twelve digits. -/
namespace AutoPR.Commands
open Python UnitOfWork Relational Routing Tenancy Earliest

structure Thread where
  repo : String
  prNumber : Int
  installation : Int
  login : String

/-- The delivery of a comment in the thread. -/
def Thread.comment (thread : Thread) (body : String) : PyVal :=
  .dict [
    ("action", .str "created"),
    ("issue", .dict [("number", .int thread.prNumber), ("pull_request", .dict [("url", .str "x")])]),
    ("comment", .dict [("body", .str body), ("user", .dict [("login", .str thread.login)])]),
    ("repository", .dict [("full_name", .str thread.repo)]),
    ("installation", .dict [("id", .int thread.installation)])]

/-- What is read of a comment in the thread. -/
def Thread.request (thread : Thread) : Option Command → Except String Request
  | none => .error "not_a_command"
  | some command =>
      if thread.login = "" then .error "anonymous"
      else if thread.repo = "" then .error "incomplete_delivery"
      else .ok ⟨command, thread.login, thread.repo, .int thread.prNumber, .int thread.installation⟩

def isPending (rows : DecisionTable) (d : DecisionId) : Bool :=
  (rows d).any (·.status = .pending)

def wouldClaim (cfg : CommandSettings) (w : Nat → Moment) (db : Database) (auth : AppAuth)
    (thread : Thread) (d : DecisionId) : Bool :=
  !isPending (afterComment cfg w db true (thread.comment (decisionCommand "approve" d)) auth).rows d

def claimable (cfg : CommandSettings) (w : Nat → Moment) (db : Database) (auth : AppAuth)
    (thread : Thread) : List DecisionId :=
  (List.range db.decisions.nextId).filter fun d =>
    isPending db.decisions.rows d && wouldClaim cfg w db auth thread d

def listed (db : Database) (thread : Thread) : List DecisionId :=
  (pendingForRepo db db.decisions.rows thread.repo thread.installation).map (·.1)

/-- The pending decisions of the thread's installation and repository, in any spelling. -/
def waiting (u : Unicode) (db : Database) (thread : Thread) : List DecisionId :=
  (List.range db.decisions.nextId).filter fun d => (db.decisions.rows d).any fun row =>
    row.status = .pending && addressable u thread.repo thread.installation row

section
variable {cfg : CommandSettings} {w : Nat → Moment} {db : Database} {auth : AppAuth}
  {thread : Thread} {d : DecisionId} {row : ReviewDecision}

/-- What is known of a comment in the thread that the checks let through. -/
structure Passes (cfg : CommandSettings) (w : Nat → Moment) (db : Database) (auth : AppAuth)
    (thread : Thread) (body : String) (command : Command) (c : Cleared) : Prop where
  sanctioned : ∃ token permission,
    Sanctioned cfg w db true (thread.comment body) auth c token permission
  command : c.request.command = command
  repo : c.request.repo = thread.repo
  prNumber : c.request.prNumber = .int thread.prNumber
  installation : c.installation = thread.installation

theorem approvedRow_moved {u : Unicode} {outcome : Comment → PostOutcome} :
    (approvedRow u outcome row).status ≠ .pending := by
  have hmark (result : ActionResult) :
      ((claimedRow row).mark (claimedRow row) result).status ≠ .pending := by
    unfold ReviewDecision.mark
    split <;> simp [claimedRow, column]
  unfold approvedRow
  split
  · exact DecisionStatus.noConfusion
  · exact hmark noAction
  · split
    · exact hmark _
    · exact DecisionStatus.noConfusion

theorem Passes.claims {body : String} {c : Cleared}
    (h : Passes cfg w db auth thread body ⟨"approve", some d⟩ c)
    (hrow : db.decisions.rows d = some row) (hopen : row.status.takeable = true)
    (haddress : addressable cfg.unicode thread.repo thread.installation row = true) :
    isPending (afterComment cfg w db true (thread.comment body) auth).rows d = false := by
  obtain ⟨token, permission, hs⟩ := h.sanctioned
  obtain ⟨auth', hclear⟩ := clear_of (s := db.desk auth) hs
  have hsilent : Silent (db.desk auth)
      (final (clear cfg w db true (thread.comment body)) (db.desk auth)) := clear_silent _
  unfold final at hsilent
  rw [hclear] at hsilent
  obtain ⟨hnew, hcalls⟩ := @Silent.fresh _ _ d hsilent rfl
  have hasks : AsksApproval cfg.unicode db.decisions.rows c d row :=
    ⟨by rw [h.command], by rw [h.command], hrow, by rw [h.repo, h.installation]; exact haddress⟩
  have hleft := (@approve_leaves cfg w c.client d c.request.repo c.request.actor thread.prNumber _
    row hrow hopen hnew hcalls).row
  have hfinal := handle_approves hclear hasks
  rw [h.prNumber] at hfinal
  unfold afterComment isPending
  rw [hfinal]
  dsimp only [PyVal.toInt, pure, Except.pure]
  rw [hleft, Option.any_some]
  exact decide_eq_false approvedRow_moved

end

/-- The thread of the queued review, as GitHub delivers a repository under this name. -/
def Thread.small (repo : String) : Thread where
  repo := repo
  prNumber := 7
  installation := 5
  login := "mona"

end AutoPR.Commands
