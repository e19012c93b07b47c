import AutoPR.Routing.Store

/-! One `router_node` run as a local state machine. The constructors of `RouterPc`
are the points between its statements and its calls of the GitHub client; what
the node computes in between belongs to the step before. -/
namespace AutoPR.Routing
open Python UnitOfWork

abbrev RouterId := Nat
abbrev RequestId := Nat

/-- The arguments of `post_issue_comment`. -/
structure Comment where
  repo : PyVal
  prNumber : Int
  body : String

structure ActionResult where
  ok : Bool
  kind : String
  url : String := ""
  detail : String := ""
deriving DecidableEq

inductive PostOutcome where
  | answered (result : ActionResult)
  | raised
deriving DecidableEq

def PostOutcome.ok : PostOutcome → Bool
  | .answered result => result.ok
  | .raised => false

inductive Actor where
  | router (r : RouterId)
  | request (q : RequestId)
deriving DecidableEq

inductive Setter where
  | gated (r : RouterId)
  | auto (r : RouterId)
  | human (q : RequestId)
  | sweep (q : RequestId)
deriving DecidableEq

/-- What has happened so far, as far as statements about runs refer to it. -/
inductive Event where
  | started (r : RouterId) (state : PRState) (stored : Bool)
  | requested (q : RequestId)
  /-- A committed statement assigned the status of the row. -/
  | set (d : DecisionId) (status : DecisionStatus) (setter : Setter)
  /-- `claim_approval` returned "claimed". -/
  | claimed (q : RequestId) (d : DecisionId)
  /-- A decision's body was handed to `post_issue_comment`. -/
  | posted (actor : Actor) (d : Option DecisionId) (comment : Comment) (ok : Bool)
  | notified (r : RouterId) (d : DecisionId) (comment : Comment) (ok : Bool)
  | replied (q : RequestId) (comment : Comment) (ok : Bool)

/-- What a step does besides moving its actor; `grow` says that an INSERT has used
the next id. -/
structure Effect (Pc : Type) where
  pc : Pc
  write : DecisionTable := fun _ => none
  grow : Bool := false
  events : List Event := []

def only (d : DecisionId) (row : ReviewDecision) : DecisionTable :=
  fun i => if i = d then some row else none

structure RouterRun where
  state : PRState
  decision : RoutingDecision

structure RouterResult where
  routingAction : String
  routingReason : PyVal
  approvalRequired : Bool
  actionTaken : String
  decisionId : Option DecisionId := none
  actionUrl : Option String := none

inductive RouterPc where
  | idle
  | selecting (run : RouterRun) (key : String)
  | inserting (run : RouterRun) (key : String) (row : ReviewDecision)
  /-- The INSERT met a row with its key. -/
  | reselecting (run : RouterRun) (key : String)
  | notifying (run : RouterRun) (d : DecisionId) (copy : ReviewDecision) (comment : Comment)
  | requeueing (run : RouterRun) (d : DecisionId)
  /-- In the auto path, with the row unless there is no store. -/
  | posting (run : RouterRun) (target : Option (DecisionId × ReviewDecision))
  | marking (run : RouterRun) (d : DecisionId) (copy : ReviewDecision) (result : ActionResult)
  | returned (result : RouterResult)
  | raised
  | crashed

inductive RouterAct where
  | start (state : PRState) (stored : Bool)
  | select
  | insert
  | notify (outcome : PostOutcome)
  | requeue
  | post (outcome : PostOutcome)
  | mark
  /-- The pending database statement raises and leaves no effect. -/
  | dbError
  | crash

def RoutingDecision.base (decision : RoutingDecision) : RouterResult where
  routingAction := decision.action.value
  routingReason := decision.reason
  approvalRequired := decision.requiresApproval
  actionTaken := "none"

def RouterRun.took (run : RouterRun) (d : Option DecisionId) (actionTaken : String) :
    RouterResult :=
  { run.decision.base with decisionId := d, actionTaken := actionTaken }

/-- The result of the `except` branches. -/
def RouterRun.failed (run : RouterRun) (d : Option DecisionId) : RouterResult :=
  run.took d (if run.decision.requiresApproval then "enqueue_failed" else "action_failed")

def RouterRun.setter (run : RouterRun) (r : RouterId) : Setter :=
  if run.decision.requiresApproval then .gated r else .auto r

def queuedNotice (u : Unicode) (d : DecisionId) (action : String) (risk : PyVal) : String :=
  "### Action queued for approval\n\n" ++
  "`#" ++ toString d ++ "` · **" ++ action ++ "** · risk `" ++ risk.toStr u ++ "`\n\n" ++
  "This one changes code, so it waits for a human. A maintainer can run:\n\n" ++
  "```\n/autopr approve " ++ toString d ++ "\n```\n\n" ++
  "`/autopr status` lists what is waiting, `/autopr reject " ++ toString d ++ "` declines it."

/-- The comment of `_notify_queued`, if it makes one. -/
def noticeComment (u : Unicode) (state : PRState) (d : DecisionId) (row : ReviewDecision) :
    Option Comment :=
  let repo := ((state.repo.getD .none).or (.str "")).toStr u
  let prNumber := state.prNumber.getD .none
  if (state.installationId.getD .none).isNone || repo = "" || prNumber.isNone then none
  else
    match prNumber.toInt u with
    | .ok n => some ⟨.str repo, n, queuedNotice u d row.action row.risk⟩
    | .error _ => none

/-- The comment that `execute_decision` posts; NONE posts nothing. -/
def executeDecision (u : Unicode) (action : Action) (body : String) (repo prNumber : PyVal) :
    Py (Option Comment) := do
  let n ← prNumber.toInt u
  match action with
  | .commentReview | .proposeFix | .escalate => return some ⟨repo, n, body⟩
  | .none => return none

def noAction : ActionResult := { ok := true, kind := "noop", detail := "no action" }

def RouterRun.comment (u : Unicode) (run : RouterRun) : Py (Option Comment) :=
  executeDecision u run.decision.action run.decision.body (run.state.repo.getD (.str "?"))
    (run.state.prNumber.getD (.int 0))

/-- `mark_executed` or `mark_failed`, by the client's answer. -/
def ReviewDecision.mark (row copy : ReviewDecision) (result : ActionResult) : ReviewDecision :=
  if result.ok then row.markExecuted copy result.url else row.markFailed copy result.detail

def ActionResult.status (result : ActionResult) : DecisionStatus :=
  if result.ok then .executed else .failed

/-- The event of a mark, which assigns no status that its copy has already. -/
def markEvents (d : DecisionId) (copy : ReviewDecision) (status : DecisionStatus)
    (setter : Setter) : List Event :=
  if status = copy.status then [] else [.set d status setter]

def startRun (cfg : Settings) (state : PRState) (stored : Bool) : RouterPc :=
  match route cfg state with
  | .error _ => .raised
  | .ok decision =>
      let run : RouterRun := ⟨state, decision⟩
      if !decision.isActionable then .returned decision.base
      else if stored then
        match decision.dedupKey cfg.unicode state with
        | .ok key => .selecting run key
        | .error _ => .returned (run.failed none)
      else if decision.requiresApproval then .returned (run.took none "queued_for_approval")
      else .posting run none

def afterNotice (run : RouterRun) (d : DecisionId) (copy : ReviewDecision) : RouterPc :=
  if copy.status = .failed then .requeueing run d
  else .returned (run.took (some d) "queued_for_approval")

def afterEnqueue (u : Unicode) (run : RouterRun) (d : DecisionId) (copy : ReviewDecision)
    (created : Bool) : RouterPc :=
  if copy.status = .executed then
    .returned { run.took (some d) "already_executed" with
      actionUrl := some (copy.resultUrl.getD "") }
  else if run.decision.requiresApproval then
    match if created then noticeComment u run.state d copy else none with
    | some comment => .notifying run d copy comment
    | none => afterNotice run d copy
  else if !created && copy.status = .rejected then
    .returned (run.took (some d) "already_rejected")
  else if !created && copy.status ≠ .failed then .returned (run.took (some d) "already_queued")
  else .posting run (some (d, copy))

def afterPost (run : RouterRun) : Option (DecisionId × ReviewDecision) → PostOutcome → RouterPc
  | some (d, copy), .answered result => .marking run d copy result
  | some (d, _), .raised => .returned (run.failed (some d))
  | none, .answered result =>
      .returned { run.took none (if result.ok then "executed" else "action_failed") with
        actionUrl := some result.url }
  | none, .raised => .raised

def routerStep (cfg : Settings) (rows : DecisionTable) (nextId : DecisionId) (r : RouterId) :
    RouterPc → RouterAct → Option (Effect RouterPc)
  | .idle, .start state stored =>
      some { pc := startRun cfg state stored, events := [.started r state stored] }
  | .selecting run key, .select =>
      match findDecision rows nextId key with
      | some (d, row) => some { pc := afterEnqueue cfg.unicode run d row false }
      | none =>
          match newDecision cfg.unicode run.state run.decision key with
          | .ok row => some { pc := .inserting run key row }
          | .error _ => some { pc := .returned (run.failed none) }
  | .inserting run key row, .insert =>
      match findDecision rows nextId key with
      | some _ => some { pc := .reselecting run key }
      | none => some { pc := afterEnqueue cfg.unicode run nextId row true,
                       write := only nextId row, grow := true,
                       events := [.set nextId .pending (run.setter r)] }
  | .reselecting run key, .select =>
      match findDecision rows nextId key with
      | some (d, row) => some { pc := afterEnqueue cfg.unicode run d row false }
      | none => some { pc := .returned (run.failed none) }
  | .notifying run d copy comment, .notify outcome =>
      some { pc := afterNotice run d copy, events := [.notified r d comment outcome.ok] }
  | .requeueing run d, .requeue =>
      let pc := .returned (run.took (some d) "queued_for_approval")
      match (rows d).bind (·.requeue) with
      | some row => some { pc := pc, write := only d row, events := [.set d .pending (.gated r)] }
      | none => some { pc := pc }
  | .posting run target, .post outcome =>
      match run.comment cfg.unicode with
      | .error _ => some { pc := afterPost run target .raised }
      | .ok none => some { pc := afterPost run target (.answered noAction) }
      | .ok (some comment) =>
          some { pc := afterPost run target outcome,
                 events := [.posted (.router r) (target.map (·.1)) comment outcome.ok] }
  | .marking run d copy result, .mark =>
      match rows d with
      | some row =>
          some { pc := .returned
                   { run.took (some d) (if result.ok then "executed" else "action_failed") with
                     actionUrl := some result.url },
                 write := only d (row.mark copy result),
                 events := markEvents d copy result.status (.auto r) }
      | none => some { pc := .returned (run.failed (some d)) }
  | .selecting run _, .dbError | .inserting run _ _, .dbError | .reselecting run _, .dbError =>
      some { pc := .returned (run.failed none) }
  | .requeueing run d, .dbError | .marking run d _ _, .dbError =>
      some { pc := .returned (run.failed (some d)) }
  | .idle, .crash | .returned _, .crash | .raised, .crash | .crashed, .crash => none
  | _, .crash => some { pc := .crashed }
  | _, _ => none

end AutoPR.Routing
