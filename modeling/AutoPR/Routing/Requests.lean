import AutoPR.Routing.Router

/-! The other users of the decision store: the ops API, comment commands once their
author is authorised, `requeue_failed` and the startup sweep. Each request is a
local state machine on a session of its own. -/
namespace AutoPR.Routing
open Python UnitOfWork

inductive Channel where
  | ops
  | comment (repo : String) (prNumber : Int) (installation : Int)
deriving DecidableEq

inductive Verb where
  | approve
  | reject
deriving DecidableEq

inductive Outcome where
  | executed (url : String)
  | handedOff (url : String)
  | alreadyExecuted
  | wasRejected
  | inProgress
  | notFound
  | actionFailed (detail : String)
  | rejected
  | readOnly
  /-- No row that this tenant and repository may address. -/
  | noDecision
  | requeued (won : Bool)
  | swept (count : Nat)
deriving DecidableEq

inductive RequestPc where
  | idle
  /-- `_decision_for` of a comment command. -/
  | looking (verb : Verb) (repo : String) (prNumber : Int) (installation : Int) (d : DecisionId)
  /-- Before the first statement of `claim_approval`; a comment command holds the
  object it has looked up. -/
  | claiming (channel : Channel) (d : DecisionId) (copy : Option ReviewDecision)
  /-- The row is not in the session yet. -/
  | loading (d : DecisionId) (won : Bool)
  | retrying (channel : Channel) (d : DecisionId) (copy : ReviewDecision)
  | handing (d : DecisionId) (copy : ReviewDecision)
  | posting (channel : Channel) (d : DecisionId) (copy : ReviewDecision)
  | marking (channel : Channel) (d : DecisionId) (copy : ReviewDecision) (result : ActionResult)
  | rejecting (channel : Channel) (d : DecisionId) (copy : Option ReviewDecision)
  | loadingRejected (d : DecisionId) (won : Bool)
  | requeueing (d : DecisionId)
  | sweeping
  /-- Holding the rows that were APPROVED when they were selected. -/
  | swept (copies : List (DecisionId × ReviewDecision))
  | replying (comment : Comment) (outcome : Outcome)
  | answered (outcome : Outcome)
  | raised
  | crashed

inductive RequestAct where
  | begin (verb : Verb) (channel : Channel) (d : DecisionId)
  | beginRequeue (d : DecisionId)
  | beginSweep
  | look
  | claim
  | load
  | retry
  | post (outcome : PostOutcome)
  | mark
  | reject
  | requeue
  | select
  | commit
  | reply (outcome : PostOutcome)
  /-- The pending database statement raises and leaves no effect. -/
  | dbError
  | crash

def prReviewUrl (cfg : Settings) (row : ReviewDecision) : String :=
  cfg.githubWebUrl ++ "/" ++ row.repo ++ "/pull/" ++ toString row.prNumber ++ "/files"

def startRequest (cfg : Settings) (verb : Verb) (channel : Channel) (d : DecisionId) : RequestPc :=
  match channel with
  | .ops =>
      if cfg.publicMode then .answered .readOnly
      else match verb with
        | .approve => .claiming .ops d none
        | .reject => .rejecting .ops d none
  | .comment repo prNumber installation => .looking verb repo prNumber installation d

def replyText (d : DecisionId) : Verb → Outcome → Option String
  | .approve, .alreadyExecuted => some ("`#" ++ toString d ++ "` was already executed.")
  | .approve, .wasRejected => some ("`#" ++ toString d ++ "` was rejected; nothing to do.")
  | .approve, .inProgress => some ("`#" ++ toString d ++ "` is being executed right now.")
  | .approve, .actionFailed detail => some ("Could not execute `#" ++ toString d ++ "`: " ++ detail)
  | .reject, .alreadyExecuted => some ("`#" ++ toString d ++ "` already executed; cannot reject.")
  | .reject, .inProgress => some ("`#" ++ toString d ++ "` is executing; cannot reject.")
  | _, .noDecision =>
      some ("No decision `#" ++ toString d ++ "` is awaiting review on this repository.")
  | _, _ => none

def Channel.finish (channel : Channel) (d : DecisionId) (verb : Verb) (outcome : Outcome) :
    RequestPc :=
  match channel with
  | .ops => .answered outcome
  | .comment repo prNumber _ =>
      match replyText d verb outcome with
      | some text => .replying ⟨.str repo, prNumber, text⟩ outcome
      | none => .answered outcome

def addressable (u : Unicode) (repo : String) (installation : Int) (row : ReviewDecision) : Bool :=
  u.lower row.repo = u.lower repo && row.installationId = some installation

/-- An approval after `claim_approval` has returned "claimed". -/
def afterClaimed (cfg : Settings) (channel : Channel) (d : DecisionId) (copy : ReviewDecision) :
    RequestPc :=
  if channel = .ops && cfg.handoffMode then .handing d copy else .posting channel d copy

def afterLost (channel : Channel) (d : DecisionId) (copy : ReviewDecision) : RequestPc :=
  match copy.status with
  | .executed => channel.finish d .approve .alreadyExecuted
  | .rejected => channel.finish d .approve .wasRejected
  | .failed => .retrying channel d copy
  | .pending | .approved => channel.finish d .approve .inProgress

/-- The end of `claim_approval`, when the session holds the row. -/
def afterClaim (cfg : Settings) (q : RequestId) (channel : Channel) (d : DecisionId)
    (copy : ReviewDecision) (won : Bool) : Effect RequestPc :=
  if won then { pc := afterClaimed cfg channel d copy, events := [.claimed q d] }
  else { pc := afterLost channel d copy }

/-- The end of `reject_pending`, when the session holds the row. -/
def afterReject (channel : Channel) (d : DecisionId) (copy : ReviewDecision) (won : Bool) :
    RequestPc :=
  channel.finish d .reject
    (if won then .rejected else if copy.status = .executed then .alreadyExecuted else .inProgress)

/-- After the first statement of `claim_approval`. -/
def claimNext (cfg : Settings) (q : RequestId) (channel : Channel) (d : DecisionId)
    (copy : Option ReviewDecision) (won : Bool) : Effect RequestPc :=
  match copy with
  | some copy => afterClaim cfg q channel d (copy.evaluate .pending .approved) won
  | none => { pc := .loading d won }

/-- After the statement of `reject_pending`. -/
def rejectNext (channel : Channel) (d : DecisionId) (copy : Option ReviewDecision) (won : Bool) :
    RequestPc :=
  match copy with
  | some copy => afterReject channel d (copy.evaluate .pending .rejected) won
  | none => .loadingRejected d won

/-- The comment of an approval, from the stored row. -/
def ReviewDecision.comment (u : Unicode) (row : ReviewDecision) : Py (Option Comment) := do
  let action ← Action.ofValue row.action
  executeDecision u action row.body (.str row.repo) (.int row.prNumber)

def afterExecute (channel : Channel) (d : DecisionId) (copy : ReviewDecision) :
    PostOutcome → RequestPc
  | .answered result => .marking channel d copy result
  | .raised => .raised

def afterMark (channel : Channel) (d : DecisionId) (result : ActionResult) : RequestPc :=
  channel.finish d .approve
    (if result.ok then .executed result.url else .actionFailed result.detail)

/-- The effect of a guarded update of one row: whether it matched decides what the
request does next. -/
def guarded (d : DecisionId) (new : Option ReviewDecision) (status : DecisionStatus)
    (setter : Setter) (next : Bool → Effect RequestPc) : Effect RequestPc :=
  match new with
  | some row =>
      let eff := next true
      { eff with write := only d row, events := eff.events ++ [.set d status setter] }
  | none => next false

def approvedRows (rows : DecisionTable) (nextId : DecisionId) :
    List (DecisionId × ReviewDecision) :=
  (List.range nextId).filterMap fun d =>
    (rows d).bind fun row => if row.status = .approved then some (d, row) else none

def requestStep (cfg : Settings) (rows : DecisionTable) (nextId : DecisionId) (q : RequestId) :
    RequestPc → RequestAct → Option (Effect RequestPc)
  | .idle, .begin verb channel d =>
      some { pc := startRequest cfg verb channel d, events := [.requested q] }
  | .idle, .beginRequeue d => some { pc := .requeueing d, events := [.requested q] }
  | .idle, .beginSweep => some { pc := .sweeping, events := [.requested q] }
  | .looking verb repo prNumber installation d, .look =>
      let channel := Channel.comment repo prNumber installation
      match (rows d).filter (addressable cfg.unicode repo installation) with
      | some row =>
          match verb with
          | .approve => some { pc := .claiming channel d (some row) }
          | .reject => some { pc := .rejecting channel d (some row) }
      | none => some { pc := channel.finish d verb .noDecision }
  | .claiming channel d copy, .claim =>
      some (guarded d ((rows d).bind (·.claim)) .approved (.human q)
        (claimNext cfg q channel d copy))
  | .loading d won, .load =>
      match rows d with
      | some row => some (afterClaim cfg q .ops d row won)
      | none => some { pc := .answered .notFound }
  | .retrying channel d copy, .retry =>
      some (guarded d ((rows d).bind (·.retry)) .approved (.human q) fun won =>
        if won then
          { pc := afterClaimed cfg channel d (copy.evaluate .failed .approved),
            events := [.claimed q d] }
        else { pc := channel.finish d .approve .inProgress })
  | .handing d copy, .mark =>
      match rows d with
      | some row =>
          let url := prReviewUrl cfg copy
          some { pc := .answered (.handedOff url), write := only d (row.markExecuted copy url),
                 events := markEvents d copy .executed (.human q) }
      | none => some { pc := .raised }
  | .posting channel d copy, .post outcome =>
      match copy.comment cfg.unicode with
      | .error _ => some { pc := .raised }
      | .ok none => some { pc := afterExecute channel d copy (.answered noAction) }
      | .ok (some comment) =>
          some { pc := afterExecute channel d copy outcome,
                 events := [.posted (.request q) (some d) comment outcome.ok] }
  | .marking channel d copy result, .mark =>
      match rows d with
      | some row =>
          some { pc := afterMark channel d result, write := only d (row.mark copy result),
                 events := markEvents d copy result.status (.human q) }
      | none => some { pc := .raised }
  | .rejecting channel d copy, .reject =>
      some (guarded d ((rows d).bind (·.reject)) .rejected (.human q) fun won =>
        { pc := rejectNext channel d copy won })
  | .loadingRejected d won, .load =>
      match rows d with
      | some row => some { pc := afterReject .ops d row won }
      | none => some { pc := .answered .notFound }
  | .requeueing d, .requeue =>
      some (guarded d ((rows d).bind (·.requeue)) .pending (.human q) fun won =>
        { pc := .answered (.requeued won) })
  | .sweeping, .select =>
      match approvedRows rows nextId with
      | [] => some { pc := .answered (.swept 0) }
      | copies => some { pc := .swept copies }
  | .swept copies, .commit =>
      some { pc := .answered (.swept copies.length),
             write := fun d => (copies.lookup d).bind fun copy => (rows d).map (·.sweep copy),
             events := copies.map fun c => .set c.1 .failed (.sweep q) }
  | .replying comment outcome, .reply result =>
      some { pc := match result with
               | .answered _ => .answered outcome
               | .raised => .raised,
             events := [.replied q comment result.ok] }
  | .looking _ _ _ _ _, .dbError | .claiming _ _ _, .dbError | .loading _ _, .dbError
  | .retrying _ _ _, .dbError | .handing _ _, .dbError | .marking _ _ _ _, .dbError
  | .rejecting _ _ _, .dbError | .loadingRejected _ _, .dbError | .requeueing _, .dbError
  | .sweeping, .dbError | .swept _, .dbError => some { pc := .raised }
  | .idle, .crash | .answered _, .crash | .raised, .crash | .crashed, .crash => none
  | _, .crash => some { pc := .crashed }
  | _, _ => none

end AutoPR.Routing
