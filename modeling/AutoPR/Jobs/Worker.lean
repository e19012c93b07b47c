import AutoPR.Jobs.Row

/-! One `_handle_message` call as a local state machine: it runs `process_job` in
a session of its own and acknowledges the entry when that returns. Every
constructor of `WorkerPc` is a point between two statements, so other actors may
run there and the process may die there. -/
namespace AutoPR.Jobs
open UnitOfWork

/-- A delivered stream entry; the fields are those that `claim_and_publish` sends. -/
structure StreamMessage where
  id : EntryId
  jobId : JobId
  repo : String
  prNumber : Int
  commitSha : String
  correlationId : String
deriving DecidableEq, Repr

/-- What has happened so far, as far as statements about runs refer to it. -/
inductive Event where
  /-- `ingest` was called. -/
  | called (publisher : Nat) (dedupKey : String)
  /-- A publisher call won the INSERT of the row. -/
  | inserted (publisher : Nat) (job : JobId) (dedupKey : String)
  /-- `queue.publish` returned the entry's id. -/
  | published (job : JobId) (entry : EntryId)
  /-- `queue.publish` raised a RedisError. -/
  | publishRaised (job : JobId)
  /-- A worker won the claim through this entry and called the handler. -/
  | started (job : JobId) (entry : EntryId)
  /-- An execution committed its result. -/
  | completed (job : JobId) (summary : String)
deriving DecidableEq, Repr

/-- What brought a handling into the outer error branch: its handler, under the
claim with this stamp and with the release statement run or not, or something
else. The branch itself does not look at it. -/
inductive Cause where
  | handler (stamp : Nat) (released : Bool)
  | other
deriving DecidableEq, Repr

inductive WorkerPc where
  | idle
  /-- Delivered; `session.get` has not run. -/
  | received (msg : StreamMessage)
  /-- Read with `attempts` at the cap. -/
  | escalating (msg : StreamMessage) (copy : PRJob)
  /-- Past the advisory checks; `now` is not read yet. -/
  | claiming (msg : StreamMessage) (copy : PRJob)
  | stamped (msg : StreamMessage) (copy : PRJob) (stamp : Nat)
  /-- The claim is committed and the handler is running. -/
  | running (msg : StreamMessage) (copy : PRJob) (stamp : Nat)
  | releasing (msg : StreamMessage) (copy : PRJob) (stamp : Nat) (exc : String)
  /-- `process_job` returned True. -/
  | acking (msg : StreamMessage)
  /-- In the outer error branch with no usable copy in the session. -/
  | failed (msg : StreamMessage) (exc : String) (cause : Cause)
  /-- In the outer error branch, holding the copy it will write from. -/
  | erring (msg : StreamMessage) (copy : PRJob) (exc : String) (cause : Cause)
  | finished
  | crashed
deriving DecidableEq, Repr

def WorkerPc.message : WorkerPc → Option StreamMessage
  | .idle | .finished | .crashed => none
  | .received msg | .escalating msg _ | .claiming msg _ | .stamped msg _ _ | .running msg _ _
  | .releasing msg _ _ _ | .acking msg | .failed msg _ _ | .erring msg _ _ _ => some msg

inductive WorkerAct where
  | read
  | stampClaim
  | escalate
  | claim
  /-- The handler returned; its result and DONE commit together. -/
  | succeed (summary : String)
  | raise (exc : String)
  | release
  | ack
  /-- `queue.ack` raised; `landed` says whether the server had acknowledged. -/
  | ackRaise (landed : Bool) (exc : String)
  | reload
  | recordError
  /-- The pending database statement raises and leaves no effect. -/
  | dbError (exc : String)
  | crash
deriving DecidableEq, Repr

/-- What a worker step does besides moving the worker: a write to its job's row,
an insert-ignore into `job_results`, an XACK of its entry. -/
structure WorkerEffect where
  pc : WorkerPc
  write : Option PRJob := none
  record : Option String := none
  ack : Bool := false
  events : List Event := []
deriving DecidableEq, Repr

/-- The checks between `session.get` and the claim. -/
def afterRead (cfg : Settings) (msg : StreamMessage) : Option PRJob → WorkerPc
  | none => .acking msg
  | some job =>
      if job.status.terminal then .acking msg
      else if cfg.maxAttempts ≤ job.attempts then .escalating msg job
      else .claiming msg job

def staleData : String := "StaleDataError"

/-- `session.get` after the claim is an identity-map hit, since commits do not
expire objects, so the handler starts with the claim's commit and the session's
copy stays the one read before it. When the handler raises, the traceback keeps
that copy alive and the outer `session.get` returns it unrefreshed; when
`queue.ack` raises, nothing holds it any more and the row is selected again. -/
def workerStep (cfg : Settings) (now : Nat) (row : Option PRJob) :
    WorkerPc → WorkerAct → Option WorkerEffect
  | .received msg, .read => some { pc := afterRead cfg msg row }
  | .escalating msg copy, .escalate =>
      match row with
      | some job => some { pc := .acking msg, write := some (job.escalate now copy) }
      | none => some { pc := .failed msg staleData .other }
  | .claiming msg copy, .stampClaim => some { pc := .stamped msg copy now }
  | .stamped msg copy stamp, .claim =>
      match row.bind (·.claim cfg stamp) with
      | some job => some { pc := .running msg copy stamp, write := some job,
                           events := [.started msg.jobId msg.id] }
      | none => some { pc := .acking msg }
  | .running msg copy _, .succeed summary =>
      match row with
      | some job => some { pc := .acking msg, write := some (job.finish now copy),
                           record := some summary, events := [.completed msg.jobId summary] }
      | none => some { pc := .failed msg staleData .other }
  | .running msg copy stamp, .raise exc => some { pc := .releasing msg copy stamp exc }
  | .releasing msg copy stamp exc, .release =>
      some { pc := .erring msg copy exc (.handler stamp true)
             write := row.bind (·.release now stamp exc) }
  | .acking _, .ack => some { pc := .finished, ack := true }
  | .acking msg, .ackRaise landed exc => some { pc := .failed msg exc .other, ack := landed }
  | .failed msg exc cause, .reload =>
      match row with
      | some job => some { pc := .erring msg job exc cause }
      | none => some { pc := .finished }
  | .erring _ copy exc _, .recordError =>
      some { pc := .finished, write := row.map (·.recordError now copy exc) }
  | .received msg, .dbError exc | .escalating msg _, .dbError exc | .stamped msg _ _, .dbError exc
  | .running msg _ _, .dbError exc => some { pc := .failed msg exc .other }
  -- The inner handler of the release swallows its own error and re-raises the handler's.
  | .releasing msg _ stamp exc, .dbError _ =>
      some { pc := .failed msg exc (.handler stamp false) }
  | .failed _ _ _, .dbError _ | .erring _ _ _ _, .dbError _ => some { pc := .finished }
  | .idle, .crash | .finished, .crash | .crashed, .crash => none
  | _, .crash => some { pc := .crashed }
  | _, _ => none

end AutoPR.Jobs
